import LadderMonitor.Proofs.Monitor.Watched

namespace LadderMonitor

/-- Whether a command leaves to watch lists what they register. -/
def Command.OffWatch : Command → Prop
  | register key s => key.requester ≠ .watch ∧ ∃ name, s = .outside name
  | unregister key _ => key.requester ≠ .watch
  | unregisterAll requester => requester ≠ .watch
  | _ => True

/-- Whether a command has names of watch entries resolved. -/
def Command.resolvesNames : Command → Bool
  | watch .. | refreshList _ => true
  | _ => false

theorem Command.watches_of_resolvesNames {command : Command} (h : command.resolvesNames) :
    command.watches := by
  cases command with
  | watch | refreshList => rfl
  | _ => cases h

/-- Whether an entry is polled exactly if it is resolved, and at an address that there is. -/
structure WatchEntry.Settled (e : WatchEntry) : Prop where
  polled : e.update.isSome = e.resolved.isSome
  address : ∀ r, e.resolved = some r → 0 ≤ r.address

/-- Whether a name resolves to none or to an address that there is. -/
def Project.Locates (p : Project) (name : String) : Prop :=
  ∃ resolved, p.resolveText name = .ok resolved ∧ ∀ r, resolved = some r → 0 ≤ r.address

instance (p : Project) (name : String) : Decidable (p.Locates name) :=
  match hresolve : p.resolveText name with
  | .ok resolved =>
    decidable_of_iff (∀ r ∈ resolved, 0 ≤ r.address) <| by
      simp [Project.Locates, hresolve]
  | .error fault => isFalse <| by
    simp [Project.Locates, hresolve]

namespace Monitor

variable {m m' : Monitor} {P : WatchEntry → Prop} {allowed : Command → Prop} {v : Move}

theorem requesterOf_ne_watch (m : Monitor) (net : Nat) : m.requesterOf net ≠ .watch := by
  intro heq
  exact Requester.not_ofNetwork_watch ⟨net, _, heq.symm⟩

/-- A marker is made for a display. -/
theorem Aside.marker (h : m.Aside) (requester : Requester) :
    (m.marker requester).2.isWatch = false := by
  rcases m.marker_cases requester with ⟨s, hs, heq⟩ | ⟨-, heq⟩
  · rw [heq]
    exact h.markers _ (Assoc.mem_of_get? hs)
  · rw [heq]
    rfl

/-- A condition that goes on to hold as long as watch lists are left alone. -/
structure Sheltered (I : Monitor → Prop) : Prop where
  aside : ∀ {m}, I m → m.Aside
  move : ∀ {m v}, I m → v.OffWatch → I (m.move v)
  closeTick : ∀ {m} tick, I m → I (m.closeTick tick)

namespace Sheltered

variable {I : Monitor → Prop} (h : Sheltered I)

include h

/-- What is displayed may change, as long as the same networks are attached with the same
markers. -/
theorem display (m : Monitor) {d : Display} (hattached : d.attached = m.display.attached)
    (hmarkers : d.markers = m.display.markers) : Keeps I m { m with display := d } := by
  intro hm
  refine h.move (v := .display d) hm ⟨?_, ?_⟩
  · rw [hattached]
    exact (h.aside hm).attached
  · rw [hmarkers]
    exact (h.aside hm).markers

theorem overlooksNetworks : OverlooksNetworks (Keeps I) where
  toLasting := lasting_keeps I
  evaluated := fun _ net hm => h.move (v := .note (.evaluated net)) hm trivial
  reported := fun _ report hm => h.move (v := .note (.reported report)) hm trivial
  asked := fun m hm => h.move (v := .active (consult m.active .activeFailed).2) hm trivial
  modifyNetwork := fun m net change _ => h.display m rfl rfl
  markDue := by
    intro m requester
    unfold Monitor.markDue
    split
    · exact id
    · exact h.display m rfl rfl
  unmarked := fun m => h.display m rfl rfl

theorem overlooksLoop : OverlooksLoop (Keeps I) where
  move := by
    intro m v hloop hm
    refine h.move hm ?_
    cases v with
    | register | unregister | unregisterAll | display | watchLists => cases hloop
    | _ => trivial
  closeTick := fun _ tick => h.closeTick tick

theorem sync (m : Monitor) {requester : Requester} (hother : requester ≠ .watch) (net : Nat) :
    Keeps I m (m.sync requester net).1 := by
  intro hm
  have hmarker := (h.aside hm).marker requester
  refine (lasting_keeps I).sync net ?_ (fun m range hm => ?_) (fun m range hm => ?_) hm
  · rcases m.marker_cases requester with ⟨s, -, heq⟩ | ⟨-, heq⟩
    · rw [heq]
      exact id
    · rw [heq]
      intro hm
      have hstamped := h.move (v := .stamp) hm trivial
      refine h.move (v := .display _) hstamped ⟨(h.aside hstamped).attached, fun entry hentry => ?_⟩
      rcases Assoc.mem_of_mem_set hentry with rfl | hold
      · rfl
      · exact (h.aside hstamped).markers entry hold
  · exact h.move (v := .register ⟨requester, range⟩ _) hm ⟨hother, hmarker⟩
  · exact h.move (v := .unregister ⟨requester, range⟩ _) hm hother

theorem attach (m : Monitor) (net : Nat) : Keeps I m (m.attach net).1 := by
  refine h.overlooksNetworks.attach m net (fun hm => ?_)
    fun m' => h.sync m' (m.requesterOf_ne_watch net) net
  refine h.move (v := .display _) hm ⟨fun entry hentry => ?_, (h.aside hm).markers⟩
  rcases Assoc.mem_of_mem_set hentry with rfl | hold
  · exact m.requesterOf_ne_watch net
  · exact (h.aside hm).attached entry hold

theorem detach (m : Monitor) (net : Nat) : Keeps I m (m.detach net) := by
  refine (lasting_keeps I).detach net (fun hm => ?_)
    fun m' hm' => h.move (v := .unregisterAll _) hm' (m.requesterOf_ne_watch net)
  exact h.move (v := .display _) hm
    ⟨fun entry hentry => (h.aside hm).attached entry (List.mem_of_mem_filter hentry),
      fun entry hentry => (h.aside hm).markers entry (List.mem_of_mem_filter hentry)⟩

/-- Commands keep what is sheltered, if those do that concern watch lists and memory. -/
theorem perform {react : Reactor} {command : Command} (hoff : command.OffWatch) (m : Monitor)
    (hopened : ∀ list, Keeps I m (m.openList list))
    (hwatches : command.watches → Keeps I m (m.perform react command).1)
    (hreset : command = .reset → Keeps I m (m.reset react).1) :
    Keeps I m (m.perform react command).1 := by
  cases command with
  | register key s =>
    obtain ⟨hother, name, rfl⟩ := hoff
    exact fun hm => h.move (v := .register key (.outside name)) hm ⟨hother, rfl⟩
  | unregister key s => exact fun hm => h.move (v := .unregister key s) hm hoff
  | unregisterAll requester => exact fun hm => h.move (v := .unregisterAll requester) hm hoff
  | attach net => exact h.attach m net
  | detach net => exact h.detach m net
  | edit edit => exact h.display m rfl rfl
  | reset => exact hreset rfl
  | _ =>
    refine h.overlooksNetworks.perform (fun m v hswitch hm => h.move hm ?_) hopened hwatches rfl
    cases v with
    | register | unregister | unregisterAll | display | watchLists => cases hswitch
    | _ => trivial

end Sheltered

/-- Watch lists are in order, all entries are of a kind, and those outside give certain commands
only. -/
structure Orderly (P : WatchEntry → Prop) (allowed : Command → Prop) (m : Monitor) : Prop where
  watched : m.Watched
  entries : ∀ e ∈ m.watched, P e
  gives : m.Gives allowed

theorem sheltered_orderly : Sheltered (Orderly P allowed) where
  aside := fun h => h.watched.aside
  move := by
    intro m v h hv
    have hsame : (m.move v).watched = m.watched := by
      refine congrArg List.flatten (m.watchLists_move ?_)
      rintro _ rfl
      exact hv
    exact ⟨h.watched.move hv, by rw [hsame]; exact h.entries,
      h.gives.of_eq (m.spared_move v).reactions⟩
  closeTick := by
    intro m tick h
    have hsound := h.watched.sound.closeTick tick
    obtain ⟨_, heq⟩ := m.closeTick_eq tick
    rw [heq] at hsound ⊢
    exact ⟨⟨hsound, h.watched.listed.of_eq rfl (Nat.le_refl _),
      ⟨h.watched.aside.attached, h.watched.aside.markers, h.watched.aside.owned,
        h.watched.aside.retired⟩, h.watched.registered⟩, h.entries, h.gives⟩

theorem Orderly.openList (h : m.Orderly P allowed) (list : Nat) :
    (m.openList list).Orderly P allowed :=
  ⟨h.watched.openList list, by rw [watched_openList]; exact h.entries, h.gives⟩

/-- Where entries may be of any kind, commands that change what is watched keep watch lists in
order. -/
theorem Orderly.watches (h : m.Orderly (fun _ => True) allowed) (react : Reactor)
    {command : Command} (hwatches : command.watches) :
    (m.perform react command).1.Orderly (fun _ => True) allowed :=
  ⟨(h.watched.perform react hwatches).1, fun _ _ => trivial,
    h.gives.of_eq (overlooksEntries_discreetly.perform hwatches react m).gently.runs.reactions⟩

section Shown

variable (hshown : ∀ e value, P e → P { e with value })

include hshown

theorem Orderly.valued (h : m.Orderly P allowed) (serial : Nat) (value : Option Scalar) :
    (m.modifyEntry serial fun e => { e with value }).Orderly P allowed := by
  refine ⟨h.watched.valued serial value, fun e he => ?_, h.gives⟩
  rw [watched_modifyEntry] at he
  obtain ⟨old, hold, rfl⟩ := List.mem_map.1 he
  split
  · exact hshown old value (h.entries old hold)
  · exact h.entries old hold

theorem overlooksCalls_orderly : OverlooksCalls (Keeps (Orderly P allowed)) where
  toOverlooksNetworks := sheltered_orderly.overlooksNetworks
  openList := fun _ list h => h.openList list
  valued := fun _ serial value h => h.valued hshown serial value
  noted := fun _ event _ h => sheltered_orderly.move (v := .note event) h trivial

/-- Commands keep watch lists in order, if those do that have names resolved. -/
theorem keeps_orderly_perform {react : Reactor} (hreact : react.Within (Keeps (Orderly P allowed)))
    {command : Command} (hoff : command.OffWatch) (m : Monitor)
    (hresolves : command.resolvesNames →
      Keeps (Orderly P allowed) m (m.perform react command).1) :
    Keeps (Orderly P allowed) m (m.perform react command).1 := by
  have hcalls : OverlooksCalls (Keeps (Orderly P allowed)) := overlooksCalls_orderly hshown
  refine sheltered_orderly.perform hoff m (fun list h => h.openList list) (fun hwatches => ?_)
    fun _ h => ?_
  · cases command with
    | watch | refreshList => exact hresolves rfl
    | unwatch list name =>
      intro h
      obtain ⟨hwatched, hsub⟩ := h.watched.unwatch list name
      exact ⟨hwatched, fun e he => h.entries e (hsub e he),
        h.gives.of_eq (overlooksEntries_discreetly.unwatch m list name).gently.runs.reactions⟩
    | clearList list =>
      intro h
      obtain ⟨hwatched, hsub⟩ := h.watched.clearList list
      exact ⟨hwatched, fun e he => h.entries e (hsub e he),
        h.gives.of_eq (overlooksEntries_discreetly.clearList m list).gently.runs.reactions⟩
    | _ => cases hwatches
  · have hinvalidated := hcalls.invalidateAll m h
    refine hcalls.reset m (fun entry hentry m' => ?_) (fun m' => ?_) h
    · exact sheltered_orderly.sync m' (hinvalidated.watched.aside.attached entry hentry) entry.2
    · exact hcalls.resetMemory m' hreact fun h => sheltered_orderly.move (v := .clear) h trivial

theorem within_reactor_orderly (hallowed : ∀ command, allowed command → command.OffWatch)
    (hresolves : ∀ (react : Reactor) command m, allowed command → command.resolvesNames →
      Keeps (Orderly P allowed) m (m.perform react command).1) :
    reactor.Within (Keeps (Orderly P allowed)) :=
  (overlooksCalls_orderly hshown).within_reactor allowed (fun _ _ hkeeps h => hkeeps h.gives h)
    fun react hreact command hcommand m =>
      keeps_orderly_perform hshown hreact (hallowed command hcommand) m
        (hresolves react command m hcommand)

end Shown

/-- Whether a turn, if it is a call, leaves to watch lists what they register. -/
def Turn.OffWatch : Turn → Prop
  | command c => c.OffWatch
  | _ => True

/-- The states of a monitor with watch lists, in whatever order things happen. Single moves lead to
the states that those see who are called in the middle of a turn. -/
inductive Watching : Monitor → Prop where
  | opened {m : Monitor} (huntouched : m.Untouched) (hlists : m.watchLists = [])
      (hgives : m.Gives Command.OffWatch) : Watching m
  | turn {m : Monitor} (h : Watching m) (v : Turn) (hoff : v.OffWatch) :
      Watching (m.turn reactor v)
  | move {m : Monitor} (h : Watching m) (v : Move) (hoff : v.OffWatch) : Watching (m.move v)

theorem Watching.turns_offWatch (h : m.Watching) {list : List Turn}
    (hoff : ∀ v ∈ list, v.OffWatch) : (m.turns reactor list).Watching := by
  induction list generalizing m with
  | nil => exact h
  | cons v rest ih =>
    obtain ⟨hv, hrest⟩ := List.forall_mem_cons.1 hoff
    exact ih (h.turn v hv) hrest

theorem Untouched.orderly (h : m.Untouched) (hlists : m.watchLists = [])
    (hgives : m.Gives allowed) : m.Orderly P allowed := by
  have hnone : m.watched = [] := by
    rw [Monitor.watched, hlists, List.flatten_nil]
  exact ⟨h.watched hnone (by simp [hlists]), by simp [hnone], hgives⟩

theorem Watching.orderly (h : m.Watching) : m.Orderly (fun _ => True) Command.OffWatch := by
  have hresolves (react : Reactor) (command : Command) (m : Monitor)
      (hnames : command.resolvesNames) :
      Keeps (Orderly (fun _ => True) Command.OffWatch) m (m.perform react command).1 :=
    fun h => h.watches react (Command.watches_of_resolvesNames hnames)
  have hreact : reactor.Within (Keeps (Orderly (fun _ => True) Command.OffWatch)) :=
    within_reactor_orderly (fun _ _ _ => trivial) (fun _ => id)
      fun react command m _ => hresolves react command m
  induction h with
  | opened huntouched hlists hgives => exact huntouched.orderly hlists hgives
  | move _ v hoff ih => exact sheltered_orderly.move ih hoff
  | turn _ v hoff ih =>
    cases v with
    | command command =>
      exact keeps_orderly_perform (fun _ _ _ => trivial) hreact hoff _ (hresolves _ command _) ih
    | _ =>
      exact sheltered_orderly.overlooksLoop.turn (overlooksCalls_orderly fun _ _ _ => trivial)
        hreact _ rfl ih

/-- Whether the names that a turn has resolved resolve to none or to addresses that there are. -/
def Turn.Locates (m : Monitor) : Turn → Prop
  | command (.watch list name) => m.entry? list name = none → m.project.Locates name
  | command (.refreshList list) => ∀ e ∈ m.entries list, m.project.Locates e.name
  | _ => True

/-- The states of a monitor with watch lists, as long as every name that is resolved resolves to
none or to an address that there is. Single moves lead to the states that those see who are called
in the middle of a turn, so that a call from inside is a turn from such a state. -/
inductive Located : Monitor → Prop where
  | opened {m : Monitor} (huntouched : m.Untouched) (hlists : m.watchLists = [])
      (hgives : m.Gives fun command => command.OffWatch ∧ command.resolvesNames = false) : Located m
  | turn {m : Monitor} (h : Located m) (v : Turn) (hoff : v.OffWatch) (hlocates : v.Locates m) :
      Located (m.turn reactor v)
  | move {m : Monitor} (h : Located m) (v : Move) (hoff : v.OffWatch) : Located (m.move v)

theorem Located.orderly (h : m.Located) : m.Orderly WatchEntry.Settled
    fun command => command.OffWatch ∧ command.resolvesNames = false := by
  have hshown (e : WatchEntry) (value : Option Scalar) (he : e.Settled) :
      WatchEntry.Settled { e with value } := ⟨he.polled, he.address⟩
  have hreact : reactor.Within (Keeps (Orderly WatchEntry.Settled
      fun command => command.OffWatch ∧ command.resolvesNames = false)) := by
    refine within_reactor_orderly hshown (fun _ h => h.1) fun react command m hquiet hnames => ?_
    rw [hquiet.2] at hnames
    cases hnames
  induction h with
  | opened huntouched hlists hgives => exact huntouched.orderly hlists hgives
  | move _ v hoff ih => exact sheltered_orderly.move ih hoff
  | @turn m _ v hoff hlocates ih =>
    cases v with
    | command command =>
      refine keeps_orderly_perform hshown hreact hoff _ (fun hnames h => ?_) ih
      cases command with
      | watch list name =>
        obtain ⟨hwatched, hentries⟩ := h.watched.watch list name
        refine ⟨hwatched, fun e he => ?_,
          h.gives.of_eq (overlooksEntries_discreetly.watch m list name).gently.runs.reactions⟩
        rcases hentries e he with hold | ⟨hnone, -, hpolled, hresolve⟩
        · exact h.entries e hold
        · refine ⟨hpolled, fun r hr => ?_⟩
          obtain ⟨resolved, hresolved, haddress⟩ := hlocates hnone
          rw [hresolve r hr] at hresolved
          exact haddress r (Except.ok.inj hresolved).symm
      | refreshList list =>
        obtain ⟨hwatched, -, hentries⟩ := h.watched.refreshList list
        refine ⟨hwatched, fun e he => ?_,
          h.gives.of_eq (overlooksEntries_discreetly.refreshList m list).gently.runs.reactions⟩
        have hok : ∀ e ∈ m.entries list, (m.project.resolveText e.name).isOk := by
          intro e he
          obtain ⟨_, hresolved, -⟩ := hlocates e he
          rw [hresolved]
          rfl
        rcases hentries hok e he with hold | ⟨hpolled, old, hmem, hresolve⟩
        · exact h.entries e hold
        · refine ⟨hpolled, fun r hr => ?_⟩
          obtain ⟨resolved, hresolved, haddress⟩ := hlocates old hmem
          rw [hresolve, hr] at hresolved
          exact haddress r (Except.ok.inj hresolved).symm
      | _ => cases hnames
    | _ =>
      exact sheltered_orderly.overlooksLoop.turn (overlooksCalls_orderly hshown) hreact _ rfl ih

/-- What is registered in the name of watch lists is exactly what their entries are to be told, as
long as every name that is resolved resolves to none or to an address that there is.

A subscriber is registered for a range just if it is the present one of an entry that is resolved
to this range; an entry has one just if it is resolved; and no registration is without an entry.
Entries may be added, removed, cleared and resolved anew on any number of lists and share ranges;
the project may be edited, ticks and everything else may happen in between. -/
theorem Located.registered_iff_watched (h : m.Located) :
    (∀ range s, m.registry.Holds ⟨.watch, range⟩ s ↔
      ∃ e ∈ m.watched, ∃ r, e.resolved = some r ∧ e.update = some s ∧
        range = ⟨r.address, r.size⟩) ∧
    (∀ e ∈ m.watched, e.update.isSome ↔ e.resolved.isSome) ∧
    ∀ registration ∈ m.registry, registration.key.requester = .watch →
      ∃ e ∈ m.watched, ∃ r, e.resolved = some r ∧ registration.key = watchKey r ∧
        ∃ s ∈ registration.subscribers, e.update = some s := by
  obtain ⟨hwatched, hsettled, -⟩ := h.orderly
  refine ⟨fun range s => ?_, fun e he => ?_, fun registration hmem hwatch => ?_⟩
  · rw [hwatched.registered]
    constructor
    · rintro ⟨e, he, r, hresolved, hs, -, hrange⟩
      exact ⟨e, he, r, hresolved, hs, hrange⟩
    · rintro ⟨e, he, r, hresolved, hs, hrange⟩
      exact ⟨e, he, r, hresolved, hs, (hsettled e he).address r hresolved, hrange⟩
  · rw [(hsettled e he).polled]
  · obtain ⟨s, hs⟩ :=
      List.exists_mem_of_ne_nil _ (hwatched.sound.registry.subscribers registration hmem).1
    have hkey : registration.key = ⟨.watch, registration.key.range⟩ := by rw [← hwatch]
    obtain ⟨e, he, r, hresolved, hupdate, -, hrange⟩ :=
      (hwatched.registered registration.key.range s).1 ⟨registration, hmem, hkey, hs⟩
    exact ⟨e, he, r, hresolved, by rw [hkey, hrange, watchKey], s, hs, hupdate⟩

/-- A monitor of a tank whose level has a symbol. -/
def tank : Monitor :=
  createDisplay {} {}
    { project := { Project.empty with symbols := [⟨"level", .system, .byte, .int 2, .int 0, ""⟩] } }

/-- Two lists watch the level, and one of them also what is not there. -/
def shelf : Monitor :=
  ((tank.turn reactor (.command (.watch 0 "level"))).turn reactor
    (.command (.watch 1 "level"))).turn reactor (.command (.watch 0 "depth"))

/-- The level has been moved, and only the first list has taken note of it. -/
def movedShelf : Monitor :=
  (shelf.turn reactor (.command (.edit (.changeSymbol "level" (.address (.int 5)))))).turn reactor
    (.command (.refreshList 0))

theorem movedShelf_registered_iff_watched :
    movedShelf.watched.map (fun e => (e.name, e.resolved.map (·.address))) =
        [("level", some 5), ("depth", none), ("level", some 2)] ∧
      movedShelf.registry.map (·.key.range) = [⟨2, 1⟩, ⟨5, 1⟩] ∧
      ∀ range s, movedShelf.registry.Holds ⟨.watch, range⟩ s ↔
        ∃ e ∈ movedShelf.watched, ∃ r, e.resolved = some r ∧ e.update = some s ∧
          range = ⟨r.address, r.size⟩ := by
  have htank : tank.Located := .opened (untouched_createDisplay _ _ _) rfl (gives_of_length rfl _)
  have hfirst := htank.turn (.command (.watch 0 "level")) trivial fun _ => by decide +kernel
  have hsecond := hfirst.turn (.command (.watch 1 "level")) trivial fun _ => by decide +kernel
  have hshelf : shelf.Located :=
    hsecond.turn (.command (.watch 0 "depth")) trivial fun _ => by decide +kernel
  have hedited := hshelf.turn
    (.command (.edit (.changeSymbol "level" (.address (.int 5))))) trivial trivial
  have hmoved : movedShelf.Located := by
    refine hedited.turn (.command (.refreshList 0)) trivial ?_
    change ∀ e ∈ entries 0 _, Project.Locates _ e.name
    decide +kernel
  exact ⟨by decide +kernel, by decide +kernel, (Located.registered_iff_watched hmoved).1⟩

end Monitor

end LadderMonitor
