import LadderMonitor.Proofs.Monitor.Foreign
import LadderMonitor.Proofs.Monitor.Monitoring

namespace LadderMonitor

/-- Whether a command has nothing to do with networks and their displays, monitoring and memory. -/
def Command.Discreet : Command → Prop
  | register key _ | unregister key _ => ¬ key.requester.OfNetwork
  | unregisterAll requester => ¬ requester.OfNetwork
  | reset | attach _ | detach _ | evaluate _ | edit _ | active _ => False
  | _ => True

/-- The network whose evaluation an event asks for. -/
def Event.evaluated? : Event → Option Nat
  | evaluated net => some net
  | _ => none

namespace Monitor

/-- Whether a move has nothing to do with networks and their displays, monitoring and memory. -/
def Move.Discreet : Move → Prop
  | register key _ | unregister key _ => ¬ key.requester.OfNetwork
  | unregisterAll requester => ¬ requester.OfNetwork
  | note event => event.evaluated? = none
  | active _ | display _ => False
  | v => v.gentle

/-- The networks whose evaluation has been asked for so far, the latest first. -/
def evaluations (m : Monitor) : List Nat := m.journal.filterMap Event.evaluated?

/-- What is displayed, what is registered for networks and what has been evaluated is as it was, the
memory has not been written to, and monitoring stays active if it was. -/
structure Discreetly (m m' : Monitor) : Prop where
  gently : m.LeadsGently m'
  display : m'.display = m.display
  registered : ∀ r : Registration, r.key.requester.OfNetwork →
    (r ∈ m'.registry ↔ r ∈ m.registry)
  evaluations : m'.evaluations = m.evaluations
  monitoring : m.Monitoring → m'.Monitoring

variable {m m' m'' : Monitor} {requester : Requester} {key : RegistrationKey} {s : Subscriber}

namespace Discreetly

theorem refl (m : Monitor) : Discreetly m m := ⟨.refl m, rfl, fun _ _ => .rfl, rfl, id⟩

theorem trans (h : Discreetly m m') (h' : Discreetly m' m'') : Discreetly m m'' where
  gently := h.gently.trans h'.gently
  display := h'.display.trans h.display
  registered := fun r hr => (h'.registered r hr).trans (h.registered r hr)
  evaluations := h'.evaluations.trans h.evaluations
  monitoring := h'.monitoring ∘ h.monitoring

theorem gives (h : Discreetly m m') {allowed : Command → Prop} (hgiven : m.Gives allowed) :
    m'.Gives allowed := hgiven.of_eq h.gently.runs.reactions

end Discreetly

theorem lasting_discreetly : Lasting Discreetly := ⟨.refl, .trans⟩

/-- Networks are evaluated only where it is noted. -/
theorem Spared.evaluations {v : Move} (h : Spared m v m')
    (hv : ∀ event, v = .note event → event.evaluated? = none) : m'.evaluations = m.evaluations := by
  obtain ⟨events, heq, hevents⟩ := h.journal
  have hnone : events.filterMap Event.evaluated? = [] := by
    refine List.filterMap_eq_nil_iff.2 fun event hevent => ?_
    rcases hevents event hevent with hnoted | hopens
    · exact hv event hnoted
    · cases event with
      | evaluated => cases hopens
      | _ => rfl
  rw [Monitor.evaluations, heq, List.filterMap_append, hnone, List.nil_append, Monitor.evaluations]

theorem discreetly_move (m : Monitor) {v : Move} (hv : v.Discreet) : Discreetly m (m.move v) := by
  have hgently : m.LeadsGently (m.move v) := by
    refine .single m v ?_
    cases v with
    | active | display => cases hv
    | register | unregister | unregisterAll | note => rfl
    | _ => exact hv
  have hspared := m.spared_move v
  have hdisplay : (m.move v).display = m.display := by
    refine hspared.display ?_
    rintro _ rfl
    cases hv
  refine ⟨hgently, hdisplay, fun r hr => ?_, ?_, fun hmonitoring => ?_⟩
  · refine m.mem_registry_move fun htouches => ?_
    cases v with
    | register | unregister | unregisterAll => exact hv (htouches ▸ hr)
    | _ => cases htouches
  · refine hspared.evaluations ?_
    rintro event rfl
    exact hv
  · refine hmonitoring.move ?_
    rintro _ rfl
    cases hv

theorem overlooksEntries_discreetly : OverlooksEntries Discreetly where
  toLasting := lasting_discreetly
  watchLists := fun m lists => m.discreetly_move (v := .watchLists lists) rfl
  unregister := fun m range s =>
    m.discreetly_move (v := .unregister ⟨.watch, range⟩ s) Requester.not_ofNetwork_watch
  stamp := fun m => m.discreetly_move (v := .stamp) rfl
  subscribeEntry := by
    intro m serial r
    have hstamped : Discreetly m m.stamp.1 := m.discreetly_move (v := .stamp) rfl
    have hchanged (change : WatchEntry → WatchEntry) :
        Discreetly m.stamp.1 (m.stamp.1.modifyEntry serial change) :=
      discreetly_move _ (v := .watchLists _) rfl
    exact (hstamped.trans (hchanged _)).trans
      (discreetly_move _ (v := .register (watchKey r) _) Requester.not_ofNetwork_watch)

theorem discreetly_perform (react : Reactor) {command : Command} (hdiscreet : command.Discreet)
    (m : Monitor) : Discreetly m (m.perform react command).1 := by
  cases command with
  | register key s => exact m.discreetly_move (v := .register key s) hdiscreet
  | unregister key s => exact m.discreetly_move (v := .unregister key s) hdiscreet
  | unregisterAll requester => exact m.discreetly_move (v := .unregisterAll requester) hdiscreet
  | listen listener => exact m.discreetly_move (v := .listen listener) rfl
  | unlisten listener => exact m.discreetly_move (v := .unlisten listener) rfl
  | start => exact m.discreetly_move (v := .start) rfl
  | stop => exact m.discreetly_move (v := .stop) rfl
  | connected change => exact m.discreetly_move (v := .connected (m.connected.map change)) rfl
  | device change => exact m.discreetly_move (v := .device (change m.device)) rfl
  | resolve target =>
    rw [perform]
    unfold ask
    split <;> exact .refl m
  | watch list name => exact overlooksEntries_discreetly.watch m list name
  | unwatch list name => exact overlooksEntries_discreetly.unwatch m list name
  | clearList list => exact overlooksEntries_discreetly.clearList m list
  | refreshList list => exact overlooksEntries_discreetly.refreshList m list
  | openList list => exact overlooksEntries_discreetly.openList m list
  | lookUp list name => exact overlooksEntries_discreetly.openList m list
  | fail => exact .refl m
  | _ => cases hdiscreet

theorem discreetly_reportIf {o : Outcome} (ho : Discreetly m o.1) (report : Report) :
    Discreetly m (reportIf o report) := by
  rcases o with ⟨m', fault⟩
  cases fault with
  | none => exact ho
  | some fault => exact ho.trans (m'.discreetly_move (v := .note (.reported report)) rfl)

/-- Those outside do not interfere with displays if they give no commands that do. -/
theorem discreetly_reactOutside (hgiven : m.Gives Command.Discreet) (name : String) :
    Discreetly m (m.reactOutside (performWithin reactionDepth) name).1 := by
  have hinside (command : Command) (hdiscreet : command.Discreet) (m : Monitor) :
      Discreetly m (performWithin reactionDepth command m).1 :=
    discreetly_perform _ hdiscreet m
  unfold reactOutside
  split
  · exact .refl m
  · rename_i reaction hfound
    have hdiscreet := hgiven _ (Assoc.mem_of_get? hfound)
    exact lasting_discreetly.andThen
      (lasting_discreetly.forEach (fun command hmem m => hinside command (hdiscreet command hmem) m)
        m) .refl

/-- Only the subscribers of displays mark networks. -/
theorem discreetly_deliver (hgiven : m.Gives Command.Discreet)
    (hs : ∀ requester stamp, s ≠ .display requester stamp) (data : Bytes) :
    Discreetly m (reactor.deliver s data m).1 := by
  cases s with
  | outside name => exact discreetly_reactOutside hgiven name
  | display requester stamp => exact absurd rfl (hs requester stamp)
  | watch serial r stamp => exact overlooksEntries_discreetly.showValue m serial r data

/-- Only displays evaluate networks when they are told that a tick has ended. -/
theorem discreetly_tell (hgiven : m.Gives Command.Discreet) {listener : Listener}
    (hlistener : listener ≠ .display) : Discreetly m (m.tell reactor listener) := by
  have hnoted := m.discreetly_move (v := .note (.told listener)) rfl
  refine discreetly_reportIf (hnoted.trans ?_) .listenerFailed
  cases listener with
  | outside name => exact discreetly_reactOutside (hnoted.gives hgiven) name
  | display => exact absurd rfl hlistener

theorem discreetly_tell_foldl (hgiven : m.Gives Command.Discreet) {listeners : List Listener}
    (hlisteners : .display ∉ listeners) : Discreetly m (listeners.foldl (tell reactor) m) := by
  induction listeners generalizing m with
  | nil => exact .refl m
  | cons listener rest ih =>
    rw [List.mem_cons, not_or] at hlisteners
    have hfirst := discreetly_tell hgiven (Ne.symm hlisteners.1)
    exact hfirst.trans (ih (hfirst.gives hgiven) hlisteners.2)

end Monitor

end LadderMonitor
