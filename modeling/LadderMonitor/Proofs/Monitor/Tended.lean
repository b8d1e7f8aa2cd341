import LadderMonitor.Proofs.Monitor.Markers
import LadderMonitor.Proofs.Monitor.Session

namespace LadderMonitor

/-- Whether a command leaves to the monitor what is its own: displays and watch lists alone make
their subscribers, and displays go on listening. -/
def Command.Proper : Command → Prop
  | register _ s => ∃ name, s = .outside name
  | unlisten listener => listener ≠ .display
  | _ => True

theorem Network.name_of_bare {n n' : Network} (h : n'.bare = n.bare) : n'.name = n.name := by
  have hname := congrArg Network.name h
  exact hname

/-- The networks have the names that they had. -/
def Workspace.SameNames (w w' : Workspace) : Prop :=
  ∀ net, (w'.network? net).map (·.name) = (w.network? net).map (·.name)

theorem Workspace.sameNames_modify (w : Workspace) (net : Nat) {change : Network → Network}
    (hname : ∀ n, w.network? net = some n → (change n).name = n.name) :
    w.SameNames (w.modify net change) := by
  intro other
  rw [network?_modify, Option.map_map]
  cases hother : w.network? other with
  | none => rfl
  | some n =>
    simp only [Option.map_some, Function.comp_apply]
    split
    · rename_i heq
      subst heq
      rw [hname n hother]
    · rfl

/-- No edit renames a network. -/
theorem Edit.sameNames_apply (w : Workspace) (edit : Edit) : w.SameNames (edit.apply w) := by
  cases edit with
  | changeBlock net | addBlock net | deleteBlock net | addWire net | deleteWire net =>
    exact w.sameNames_modify net fun _ _ => rfl
  | _ => exact fun _ => rfl

namespace Monitor

variable {m m' : Monitor} {requester : Requester} {s : Subscriber} {react : Reactor}

theorem requesterOf_congr (h : m.workspace.SameNames m'.workspace) (net : Nat) :
    m'.requesterOf net = m.requesterOf net := by
  have hname (m : Monitor) : m.requesterOf net =
      .ofNetwork net (((m.workspace.network? net).map (·.name)).getD "") := by
    unfold requesterOf
    cases m.workspace.network? net <;> rfl
  rw [hname, hname, h]

/-- A display is tended: what is noted for it fits together, and it is told when ticks end. -/
structure Tended (m : Monitor) : Prop where
  due : m.display.due.Nodup
  attached : (m.display.attached.map (·.1)).Nodup
  named : ∀ entry ∈ m.display.attached, entry.1 = m.requesterOf entry.2
  markers : m.OwnMarkers
  owned : ∀ r ∈ m.records, ∀ requester stamp, .display requester stamp ∈ r.subscribers →
    r.key.requester = requester
  listening : .display ∈ m.listeners
  proper : m.Gives Command.Proper

theorem Untouched.tended (h : m.Untouched) (hlistening : .display ∈ m.listeners)
    (hproper : m.Gives Command.Proper) : m.Tended where
  due := by simp [h.due]
  attached := by simp [h.attached]
  named := by simp [h.attached]
  markers := h.ownMarkers
  owned := by simp [records, h.registry, h.retired]
  listening := hlistening
  proper := hproper

namespace Tended

/-- The requester under which a network is attached stands for this network alone. -/
theorem eq_of_net (h : m.Tended) {entry entry' : Requester × Nat}
    (hentry : entry ∈ m.display.attached) (hentry' : entry' ∈ m.display.attached)
    (hnet : entry.2 = entry'.2) : entry = entry' := by
  refine Prod.ext ?_ hnet
  rw [h.named entry hentry, h.named entry' hentry', hnet]

/-- Who is attached with a network is the requester of its entry. -/
theorem exists_attached_iff (h : m.Tended) {entry : Requester × Nat}
    (hentry : entry ∈ m.display.attached) {P : Requester → Prop} :
    (∃ requester, (requester, entry.2) ∈ m.display.attached ∧ P requester) ↔ P entry.1 := by
  constructor
  · rintro ⟨requester, hother, hP⟩
    rwa [h.eq_of_net hentry hother rfl]
  · exact fun hP => ⟨entry.1, hentry, hP⟩

theorem ofNetwork (h : m.Tended) {entry : Requester × Nat} (hentry : entry ∈ m.display.attached) :
    entry.1.OfNetwork :=
  ⟨entry.2, _, h.named entry hentry⟩

/-- What is displayed may change as long as it fits together. -/
theorem of_display (h : m.Tended) {display : Display} (hdue : display.due.Nodup)
    (hattached : (display.attached.map (·.1)).Nodup)
    (hnamed : ∀ entry ∈ display.attached, entry.1 = requesterOf { m with display } entry.2)
    (hmarkers : OwnMarkers { m with display }) : Tended { m with display } :=
  ⟨hdue, hattached, hnamed, hmarkers, h.owned, h.listening, h.proper⟩

theorem of_workspace (h : m.Tended) {workspace : Workspace}
    (hnames : m.workspace.SameNames workspace) :
    Tended { m with display.workspace := workspace } := by
  refine h.of_display h.due h.attached (fun entry hentry => ?_) h.markers
  have hsame : requesterOf { m with display.workspace := workspace } entry.2 =
      m.requesterOf entry.2 := requesterOf_congr hnames entry.2
  exact (h.named entry hentry).trans hsame.symm

theorem of_due (h : m.Tended) {due : List Requester} (hdue : due.Nodup) :
    Tended { m with display.due := due } :=
  h.of_display hdue h.attached h.named h.markers

end Tended

def Tends (m m' : Monitor) : Prop := m.Tended → m'.Tended

theorem lasting_tends : Lasting Tends where
  refl := fun _ => id
  trans := fun h h' => h' ∘ h

/-- Moves tend the display, apart from those that change it, take its listener away, or register its
subscribers for others. -/
theorem tends_move (m : Monitor) {v : Move} (hdisplay : ∀ display, v ≠ .display display)
    (hlistens : v ≠ .unlisten .display)
    (hregisters : ∀ key requester stamp, v = .register key (.display requester stamp) →
      key.requester = requester) : Tends m (m.move v) := by
  intro h
  have hspared := m.spared_move v
  have hsame := hspared.display hdisplay
  refine ⟨?_, ?_, ?_, ?_, fun x hx requester stamp hs => ?_, ?_, ?_⟩
  · rw [hsame]
    exact h.due
  · rw [hsame]
    exact h.attached
  · intro entry hentry
    rw [hsame] at hentry
    have hnamed : (m.move v).requesterOf entry.2 = m.requesterOf entry.2 := by
      rw [requesterOf, requesterOf, workspace, workspace, hsame]
    exact (h.named entry hentry).trans hnamed.symm
  · rw [OwnMarkers, hsame]
    exact h.markers
  · cases m.origin_move v hx with
    | kept old hold _ hkey hsubscribers =>
      rw [hkey]
      rcases hsubscribers _ hs with hbefore | hnow
      · exact h.owned old hold requester stamp hbefore
      · rw [← hkey]
        exact hregisters _ _ _ hnow
    | opened s' hv hnew =>
      rw [hnew] at hs
      obtain rfl := List.mem_singleton.1 hs
      exact hregisters _ _ _ hv
  · exact hspared.listeners .display h.listening hlistens
  · exact h.proper.of_eq hspared.reactions

theorem tends_unregister (m : Monitor) (key : RegistrationKey) (s : Subscriber) :
    Tends m (m.unregister key s) :=
  m.tends_move (v := .unregister key s) (by simp) (by simp) (by simp)

theorem overlooks_tends : Overlooks Tends where
  toLasting := lasting_tends
  watchLists := fun m lists =>
    m.tends_move (v := .watchLists lists) (by simp) (by simp) (by simp)
  evaluated := fun m net => m.tends_move (v := .note (.evaluated net)) (by simp) (by simp) (by simp)
  reported := fun m report =>
    m.tends_move (v := .note (.reported report)) (by simp) (by simp) (by simp)
  asked := fun m =>
    m.tends_move (v := .active (consult m.active .activeFailed).2) (by simp) (by simp) (by simp)
  modifyNetwork := fun m net change hredrawn h => h.of_workspace <|
    m.workspace.sameNames_modify net fun n hn => Network.name_of_bare (hredrawn n hn).bare
  markDue := by
    intro m requester h
    unfold Monitor.markDue
    split
    · exact h
    · rename_i hnew
      exact h.of_due (List.nodup_cons.2 ⟨hnew, h.due⟩)
  unmarked := fun _ h => h.of_due .nil

theorem overlooksWatching_tends : OverlooksWatching Tends :=
  .of_register overlooks_tends
    (fun m event _ => m.tends_move (v := .note event) (by simp) (by simp) (by simp))
    (fun m => m.tends_move (v := .stamp) (by simp) (by simp) (by simp))
    (fun m range serial r stamp =>
      m.tends_move (v := .register ⟨.watch, range⟩ (.watch serial r stamp)) (by simp) (by simp)
        (by simp))
    fun m range s => m.tends_unregister ⟨.watch, range⟩ s

theorem tends_marker (m : Monitor) (requester : Requester) :
    Tends m (m.marker requester).1 := by
  intro h
  have hmarkers := m.keepsMarkers_marker requester h.markers
  rcases m.marker_cases requester with ⟨s, -, heq⟩ | ⟨-, heq⟩
  · rwa [heq]
  · rw [heq] at hmarkers ⊢
    have hstamped := overlooksWatching_tends.stamp m h
    exact hstamped.of_display hstamped.due hstamped.attached hstamped.named hmarkers

/-- The marker of a requester marks the networks of this requester. -/
theorem OwnMarkers.marker (h : m.OwnMarkers) (requester : Requester) :
    ∃ stamp, (m.marker requester).2 = .display requester stamp := by
  rcases m.marker_cases requester with ⟨s, hs, heq⟩ | ⟨-, heq⟩
  · rw [heq]
    exact h.eq_display hs
  · rw [heq]
    exact ⟨_, rfl⟩

theorem tends_sync (m : Monitor) (requester : Requester) (net : Nat) :
    Tends m (m.sync requester net).1 := by
  intro h
  obtain ⟨stamp, hstamp⟩ := h.markers.marker requester
  refine lasting_tends.sync net (m.tends_marker requester) (fun m range => ?_)
    (fun m range => m.tends_unregister ⟨requester, range⟩ _) h
  rw [hstamp]
  refine m.tends_move (v := .register ⟨requester, range⟩ (.display requester stamp)) (by simp)
    (by simp) ?_
  rintro _ _ _ heq
  cases heq
  rfl

/-- A network is entered under the requester that stands for it. -/
theorem tends_entered (m : Monitor) (net : Nat) :
    Tends (m.invalidate net) { m.invalidate net with
      display.attached :=
        Assoc.set (m.requesterOf net) net (m.invalidate net).display.attached } := by
  intro h
  have hnames : m.workspace.SameNames (m.invalidate net).workspace :=
    m.workspace.sameNames_modify net fun _ _ => rfl
  refine h.of_display h.due (Assoc.nodup_keys_set h.attached) (fun entry hentry => ?_) h.markers
  rcases Assoc.mem_of_mem_set hentry with rfl | hold
  · exact (requesterOf_congr hnames net).symm
  · exact h.named entry hold

theorem tends_attach (m : Monitor) (net : Nat) : Tends m (m.attach net).1 :=
  overlooks_tends.attach m net (m.tends_entered net) fun m => m.tends_sync _ net

theorem tends_forgotten (m : Monitor) (requester : Requester) :
    Tends m { m with
      display.markers := Assoc.erase requester m.display.markers
      display.due := m.display.due.filter (· ≠ requester)
      display.attached := Assoc.erase requester m.display.attached } := by
  intro h
  exact h.of_display (h.due.filter _) (Assoc.nodup_keys_erase h.attached)
    (fun entry hentry => h.named entry (List.mem_of_mem_filter hentry))
    fun entry hentry => h.markers entry (List.mem_of_mem_filter hentry)

theorem tends_detach (m : Monitor) (net : Nat) : Tends m (m.detach net) :=
  lasting_tends.detach net (m.tends_forgotten _)
    fun m => m.tends_move (v := .unregisterAll _) (by simp) (by simp) (by simp)

theorem tends_perform (hreact : react.Within Tends) {command : Command}
    (hproper : command.Proper) (m : Monitor) : Tends m (m.perform react command).1 := by
  cases command with
  | register key s =>
    obtain ⟨name, rfl⟩ := hproper
    exact m.tends_move (v := .register key (.outside name)) (by simp) (by simp) (by simp)
  | unregister key s => exact m.tends_unregister key s
  | unregisterAll requester =>
    exact m.tends_move (v := .unregisterAll requester) (by simp) (by simp) (by simp)
  | attach net => exact m.tends_attach net
  | detach net => exact m.tends_detach net
  | edit edit => exact fun h => h.of_workspace (edit.sameNames_apply m.workspace)
  | reset =>
    exact overlooks_tends.reset m (fun entry _ m => m.tends_sync entry.1 entry.2) fun m =>
      overlooksWatching_tends.resetMemory m hreact
        (m.tends_move (v := .clear) (by simp) (by simp) (by simp))
  | unlisten listener =>
    exact m.tends_move (v := .unlisten listener) (by simp)
      (fun heq => hproper (Move.unlisten.inj heq)) (by simp)
  | _ =>
    refine overlooks_tends.perform overlooksWatching_tends.toOverlooksEntries
      (fun m v hswitch => m.tends_move ?_ ?_ ?_) react rfl m
    · rintro _ rfl
      cases hswitch
    · rintro rfl
      cases hswitch
    · rintro _ _ _ rfl
      cases hswitch

theorem within_reactor_tends : reactor.Within Tends :=
  overlooks_tends.within_reactor Command.Proper
    (fun _ _ htends htended => htends htended.proper htended)
    fun _ hreact _ hproper m => tends_perform hreact hproper m

theorem overlooksLoop_tends : OverlooksLoop Tends where
  move := by
    intro m v hloop
    refine m.tends_move ?_ ?_ ?_
    · rintro _ rfl
      cases hloop
    · rintro rfl
      cases hloop
    · rintro _ _ _ rfl
      cases hloop
  closeTick := by
    intro m tick h
    obtain ⟨_, heq⟩ := m.closeTick_eq tick
    rw [heq]
    exact ⟨h.due, h.attached, h.named, h.markers, h.owned, h.listening, h.proper⟩

/-- Whether a turn, if it is a call, leaves to the monitor what is its own. -/
def Turn.Proper : Turn → Prop
  | command c => c.Proper
  | _ => True

/-- The states that a monitor that displays networks gets into, in whatever order things happen. -/
inductive InService : Monitor → Prop where
  | opened {m : Monitor} (huntouched : m.Untouched) (hlistening : .display ∈ m.listeners)
      (hproper : m.Gives Command.Proper) : InService m
  | turn {m : Monitor} (h : InService m) (v : Turn) (hproper : v.Proper) :
      InService (m.turn reactor v)

namespace InService

theorem createDisplay (settings : Settings) (device : Device) (workspace : Workspace) :
    (Monitor.createDisplay settings device workspace).InService :=
  .opened (untouched_createDisplay settings device workspace) (List.mem_singleton_self _)
    (gives_of_length rfl _)

theorem reachable (h : m.InService) : m.Reachable := by
  induction h with
  | opened huntouched => exact .fresh huntouched.toFresh
  | turn _ v _ ih => exact ih.of_runs (inner_reactor.runs_turn _ v)

theorem recorded (h : m.InService) : m.Recorded := by
  induction h with
  | opened huntouched => exact huntouched.recorded
  | turn _ v _ ih => exact ih.of_runs (inner_reactor.runs_turn _ v)

theorem tended (h : m.InService) : m.Tended := by
  induction h with
  | opened huntouched hlistening hproper => exact huntouched.tended hlistening hproper
  | turn _ v hproper ih =>
    cases v with
    | command command => exact tends_perform within_reactor_tends hproper _ ih
    | _ =>
      exact overlooksLoop_tends.turn overlooksWatching_tends.toOverlooksCalls
        within_reactor_tends _ rfl ih

theorem turns (h : m.InService) {list : List Turn} (hproper : ∀ v ∈ list, v.Proper) :
    (m.turns reactor list).InService := by
  induction list generalizing m with
  | nil => exact h
  | cons v rest ih =>
    obtain ⟨hv, hrest⟩ := List.forall_mem_cons.1 hproper
    exact ih (h.turn v hv) hrest

end InService

end Monitor

end LadderMonitor
