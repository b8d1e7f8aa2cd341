import LadderMonitor.Proofs.Monitor.Refresh

namespace LadderMonitor

/-- Whether a command does not edit, reset or replace predicates, and leaves to the monitor what is
its own. Networks may be attached, detached and evaluated. -/
def Command.Unobtrusive : Command → Prop
  | attach _ | detach _ | evaluate _ => True
  | command => command.Discreet ∧ command.Proper

/-- Whether bytes are handed to the display of a requester. -/
def Event.Updates (requester : Requester) : Event → Prop
  | delivered _ s _ => s.Displays requester
  | _ => False

/-- Whether after events, the latest first, an evaluation is owed to a network that is attached:
bytes have been handed to its display, or it was owed one before, and it has not been evaluated
since. -/
def Event.Owed (entry : Requester × Nat) (before : Prop) : List Event → Prop
  | [] => before
  | event :: earlier =>
    event ≠ .evaluated entry.2 ∧ (event.Updates entry.1 ∨ Owed entry before earlier)

namespace Event

variable {entry : Requester × Nat} {before before' : Prop} {events later earlier : List Event}

theorem owed_append : Owed entry before (later ++ earlier) ↔
    Owed entry (Owed entry before earlier) later := by
  induction later with
  | nil => rfl
  | cons event rest ih => rw [List.cons_append, Owed, Owed, ih]

theorem Owed.mono (h : Owed entry before events) (hbefore : before → before') :
    Owed entry before' events := by
  induction events with
  | nil => exact hbefore h
  | cons event rest ih => exact ⟨h.1, h.2.imp_right ih⟩

/-- What was owed before is owed only as long as there is no evaluation. -/
theorem Owed.cases (h : Owed entry before events) :
    Owed entry False events ∨ before ∧ .evaluated entry.2 ∉ events := by
  induction events with
  | nil => exact .inr ⟨h, by simp⟩
  | cons event rest ih =>
    obtain ⟨hother, hupdates | hrest⟩ := h
    · exact .inl ⟨hother, .inl hupdates⟩
    · refine (ih hrest).imp (fun howed => ⟨hother, .inr howed⟩) fun ⟨hbefore, hnone⟩ => ?_
      exact ⟨hbefore, List.not_mem_cons_of_ne_of_not_mem (Ne.symm hother) hnone⟩

/-- Bytes that were handed out and no evaluation since: one is owed. -/
theorem owed_of_updates {event : Event} (hupdates : event.Updates entry.1)
    (hnone : .evaluated entry.2 ∉ later) : Owed entry before (later ++ event :: earlier) := by
  have hother : event ≠ .evaluated entry.2 := by
    rintro rfl
    exact hupdates
  rw [owed_append]
  induction later with
  | nil => exact ⟨hother, .inl hupdates⟩
  | cons first rest ih =>
    rw [List.mem_cons, not_or] at hnone
    exact ⟨Ne.symm hnone.1, .inr (ih hnone.2)⟩

end Event

theorem Workspace.Alike.sameNames {w w' : Workspace} (h : w.Alike w') : w.SameNames w' := by
  intro net
  have hnames := congrArg (Option.map Network.name) (h.networks net)
  rwa [Option.map_map, Option.map_map] at hnames

namespace Block

variable {p : Project} {blocks : List Block}

/-- When the ranges of symbols can be told, every symbol can be resolved. -/
theorem not_baffle_of_ranges {wanted : List ByteRange} (h : Block.ranges p blocks = .ok wanted)
    (fault : Fault) : ¬ Baffle p blocks fault := by
  obtain ⟨found, hfound⟩ : ∃ found, blocks.mapM (range? p) = .ok found := by
    unfold Block.ranges at h
    cases hmap : blocks.mapM (range? p) with
    | error other =>
      rw [hmap] at h
      cases h
    | ok found => exact ⟨found, rfl⟩
  rintro ⟨b, hb, hsymbol, hresolve⟩
  obtain ⟨range, hrange⟩ := exists_of_mapM_eq_ok hfound hb
  have hsome : ¬ b.symbol.isEmpty = true := by simpa using hsymbol
  rw [range?, if_neg hsome, hresolve] at hrange
  cases hrange

end Block

namespace Monitor

variable {m₀ m m' m'' : Monitor} {entry : Requester × Nat} {requester : Requester} {net : Nat}
  {s : Subscriber} {v : Move}

theorem sync_of_baffles {fault : Fault} (h : m.workspace.Baffles net fault) :
    (m.sync requester net).1 = (m.marker requester).1 := by
  obtain ⟨_, _, heq, -⟩ := m.marker_spec requester
  have hworkspace : (m.marker requester).1.workspace = m.workspace := by
    rw [heq]
    rfl
  have hproject : (m.marker requester).1.project = m.workspace.project :=
    congrArg Workspace.project hworkspace
  unfold sync
  simp only [hworkspace, hproject]
  split
  · rfl
  · rename_i hranges
    exact absurd h (Block.not_baffle_of_ranges hranges fault)

/-- Whether a requester stands for a network whose symbols can be resolved. -/
def Clear (m : Monitor) (requester : Requester) : Prop :=
  ∃ net, m.requesterOf net = requester ∧ ∀ fault, ¬ m.workspace.Baffles net fault

/-- No two networks have one requester, and the symbols that resolve do so to addresses that can be
written out. -/
structure Regular (m : Monitor) : Prop where
  apart : Function.Injective m.requesterOf
  nameable : ∀ net, m.workspace.Nameable net

/-- The project has stayed as it was, attached networks remember nothing but what their symbols
resolve to, and only networks whose symbols can be resolved are polled and due. -/
structure Poised (m₀ m : Monitor) : Prop where
  tended : m.Tended
  gives : m.Gives Command.Discreet
  alike : m₀.workspace.Alike m.workspace
  current : ∀ entry ∈ m.display.attached, m.workspace.Current entry.2
  registered : ∀ r ∈ m.records, ∀ requester, r.Displays requester → m₀.Clear requester
  due : ∀ requester ∈ m.display.due, m₀.Clear requester

namespace Poised

theorem requesterOf_eq (h : Poised m₀ m) (net : Nat) : m.requesterOf net = m₀.requesterOf net :=
  requesterOf_congr h.alike.sameNames net

/-- Where the monitor has started out regular, networks that are attached and due can be evaluated.
-/
theorem evaluable (h : Poised m₀ m) (hregular : m₀.Regular)
    (hentry : entry ∈ m.display.attached) (hdue : entry.1 ∈ m.display.due) :
    m.Evaluable entry.2 := by
  obtain ⟨net, hnet, hresolves⟩ := h.due _ hdue
  rw [h.tended.named entry hentry, h.requesterOf_eq] at hnet
  obtain rfl := hregular.apart hnet
  exact evaluable_of_resolves (fun fault hbaffles => hresolves fault (h.alike.baffles hbaffles))
    ((h.alike.nameable (hregular.nameable _)).placed (h.current entry hentry))

/-- What is displayed may change as long as the networks stay and those that are attached remember
nothing but what their symbols resolve to. -/
theorem of_display (h : Poised m₀ m) {display : Display} (htended : Tended { m with display })
    (halike : m.workspace.Alike display.workspace)
    (hcurrent : ∀ entry ∈ display.attached, display.workspace.Current entry.2)
    (hdue : ∀ requester ∈ display.due, m₀.Clear requester) : Poised m₀ { m with display } :=
  ⟨htended, h.gives, h.alike.trans halike, hcurrent, h.registered, hdue⟩

theorem move (h : Poised m₀ m) (hdisplay : ∀ display, v ≠ .display display)
    (hlistens : v ≠ .unlisten .display)
    (hregisters : ∀ key requester stamp, v = .register key (.display requester stamp) →
      key.requester = requester ∧ m₀.Clear requester) : Poised m₀ (m.move v) := by
  have hspared := m.spared_move v
  have hsame := hspared.display hdisplay
  have hworkspace : (m.move v).workspace = m.workspace := congrArg Display.workspace hsame
  refine ⟨m.tends_move hdisplay hlistens (fun key requester stamp hv =>
    (hregisters key requester stamp hv).1) h.tended, h.gives.of_eq hspared.reactions, ?_, ?_,
    fun x hx requester hdisplays => ?_, ?_⟩
  · rw [hworkspace]
    exact h.alike
  · rw [hsame, hworkspace]
    exact h.current
  · obtain ⟨s, hs, stamp, rfl⟩ := hdisplays
    cases m.origin_move v hx with
    | kept old hold _ _ hsubscribers =>
      rcases hsubscribers _ hs with hbefore | hnow
      · exact h.registered old hold requester ⟨_, hbefore, stamp, rfl⟩
      · exact (hregisters _ _ _ hnow).2
    | opened s' hv hnew =>
      rw [hnew] at hs
      obtain rfl := List.mem_singleton.1 hs
      exact (hregisters _ _ _ hv).2
  · rw [hsame]
    exact h.due

end Poised

/-- A network is attached, monitoring is active, and the monitor has started out regular. -/
structure Attentive (m₀ : Monitor) (entry : Requester × Nat) (m : Monitor) : Prop where
  regular : m₀.Regular
  monitoring : m.Monitoring
  attached : entry ∈ m.display.attached

/-- A network that is owed an evaluation after what has been done is due. -/
def Heeds (entry : Requester × Nat) (m m' : Monitor) : Prop :=
  ∃ events, m'.journal = events ++ m.journal ∧
    (Event.Owed entry (entry.1 ∈ m.display.due) events → entry.1 ∈ m'.display.due)

/-- What can be evaluated goes on to be so; and as long as a network stays attached, it is due
whenever it is owed an evaluation. -/
def Attends (m₀ : Monitor) (entry : Requester × Nat) (m m' : Monitor) : Prop :=
  Poised m₀ m → Poised m₀ m' ∧ (Attentive m₀ entry m → Attentive m₀ entry m' ∧ Heeds entry m m')

theorem Heeds.of_eq (hjournal : m'.journal = m.journal)
    (hdue : entry.1 ∈ m.display.due → entry.1 ∈ m'.display.due) : Heeds entry m m' :=
  ⟨[], hjournal, hdue⟩

theorem Heeds.trans (h : Heeds entry m m') (h' : Heeds entry m' m'') : Heeds entry m m'' := by
  obtain ⟨events, hjournal, howed⟩ := h
  obtain ⟨events', hjournal', howed'⟩ := h'
  refine ⟨events' ++ events, by rw [hjournal', hjournal, List.append_assoc], fun hall => ?_⟩
  exact howed' ((Event.owed_append.1 hall).mono howed)

theorem lasting_attends : Lasting (Attends m₀ entry) where
  refl := fun _ h => ⟨h, fun hattentive => ⟨hattentive, .of_eq rfl id⟩⟩
  trans := by
    intro m m' m'' hfirst hsecond h
    obtain ⟨h', hattends⟩ := hfirst h
    obtain ⟨h'', hattends'⟩ := hsecond h'
    refine ⟨h'', fun hattentive => ?_⟩
    obtain ⟨hattentive', hheeds⟩ := hattends hattentive
    obtain ⟨hattentive'', hheeds'⟩ := hattends' hattentive'
    exact ⟨hattentive'', hheeds.trans hheeds'⟩

/-- Whether a move leaves the display of networks alone, or registers it for a network whose symbols
can be resolved. -/
def Move.Unobtrusive (m₀ : Monitor) (entry : Requester × Nat) : Move → Prop
  | register key s => ∀ requester, s.Displays requester →
      key.requester = requester ∧ m₀.Clear requester
  | unlisten listener => listener ≠ .display
  | note event => ¬ event.Updates entry.1
  | display _ | active _ => False
  | _ => True

theorem attends_move (m : Monitor) (hv : v.Unobtrusive m₀ entry) :
    Attends m₀ entry m (m.move v) := by
  intro h
  have hdisplay : ∀ display, v ≠ .display display := by
    rintro _ rfl
    exact hv
  have hspared := m.spared_move v
  have hsame := hspared.display hdisplay
  refine ⟨h.move hdisplay ?_ ?_, fun hattentive => ⟨⟨hattentive.regular, ?_, ?_⟩, ?_⟩⟩
  · rintro rfl
    exact hv rfl
  · rintro key requester stamp rfl
    exact hv requester ⟨stamp, rfl⟩
  · refine hattentive.monitoring.move ?_
    rintro _ rfl
    exact hv
  · rw [hsame]
    exact hattentive.attached
  · obtain ⟨events, hjournal, hevents⟩ := hspared.journal
    refine ⟨events, hjournal, fun howed => ?_⟩
    rw [hsame]
    -- None of the events hands bytes to the display.
    have hquiet : ∀ event ∈ events, ¬ event.Updates entry.1 := by
      intro event hmem hupdates
      rcases hevents event hmem with rfl | hopens
      · exact hv hupdates
      · cases event with
        | delivered => cases hopens
        | _ => exact hupdates
    clear hevents hjournal
    induction events with
    | nil => exact howed
    | cons event rest ih =>
      obtain ⟨hfirst, hrest⟩ := List.forall_mem_cons.1 hquiet
      exact ih (howed.2.resolve_left hfirst) hrest

/-- What is displayed may change as long as the network stays attached, and due if it was. -/
theorem attends_display (m : Monitor) {display : Display}
    (hposed : Poised m₀ m → Poised m₀ { m with display })
    (hattached : Poised m₀ m → Attentive m₀ entry m → entry ∈ display.attached)
    (hdue : Poised m₀ m → Attentive m₀ entry m → entry.1 ∈ m.display.due → entry.1 ∈ display.due) :
    Attends m₀ entry m { m with display } := by
  intro h
  refine ⟨hposed h, fun hattentive => ⟨⟨hattentive.regular, ?_, hattached h hattentive⟩, ?_⟩⟩
  · exact hattentive.monitoring
  · exact .of_eq rfl (hdue h hattentive)

theorem overlooksEvaluation_attends : OverlooksEvaluation (Attends m₀ entry) where
  toLasting := lasting_attends
  evaluated := fun m net => attends_move m (v := .note (.evaluated net)) id
  reported := fun m report => attends_move m (v := .note (.reported report)) id
  asked := by
    intro m h
    refine ⟨h.move (v := .active (consult m.active .activeFailed).2) (by simp) (by simp) (by simp),
      fun hattentive =>
        ⟨⟨hattentive.regular, hattentive.monitoring.askActive.2, ?_⟩, .of_eq rfl id⟩⟩
    exact hattentive.attached
  modifyNetwork := by
    intro m net change hredrawn
    refine attends_display m (fun h => ?_) (fun _ hattentive => hattentive.attached) fun _ _ => id
    refine h.of_display (overlooks_tends.modifyNetwork m net change hredrawn h.tended)
      (.modify _ net fun n hn => (hredrawn n hn).bare) (fun entry hentry n hn => ?_) h.due
    obtain ⟨hsymbols, hoffsets⟩ := m.workspace.layout_modify net change
    rw [Workspace.network?_modify] at hn
    obtain ⟨old, hold, rfl⟩ := Option.map_eq_some_iff.1 hn
    split
    · rename_i heq
      exact ((hredrawn old (heq ▸ hold)).current (h.current entry hentry old hold)).congr
        hsymbols hoffsets
    · exact (h.current entry hentry old hold).congr hsymbols hoffsets

theorem overlooksEntries_attends : OverlooksEntries (Attends m₀ entry) where
  toLasting := lasting_attends
  watchLists := fun m lists => attends_move m (v := .watchLists lists) trivial
  unregister := fun m range s => attends_move m (v := .unregister ⟨.watch, range⟩ s) trivial
  stamp := fun m => attends_move m (v := .stamp) trivial
  subscribeEntry := by
    intro m serial r
    have hstamped : Attends m₀ entry m m.stamp.1 := attends_move (v := .stamp) m trivial
    have hchanged (change : WatchEntry → WatchEntry) :
        Attends m₀ entry m.stamp.1 (m.stamp.1.modifyEntry serial change) :=
      attends_move (v := .watchLists _) m.stamp.1 trivial
    have hregistered (m : Monitor) (stamp : Nat) :
        Attends m₀ entry m (m.register (watchKey r) (.watch serial r stamp)).1 := by
      refine attends_move (v := .register (watchKey r) (.watch serial r stamp)) m ?_
      rintro requester ⟨_, heq⟩
      cases heq
    exact lasting_attends.trans (lasting_attends.trans hstamped (hchanged _)) (hregistered _ _)

/-- Commands that have nothing to do with networks. -/
theorem attends_perform (react : Reactor) {command : Command} (hdiscreet : command.Discreet)
    (hproper : command.Proper) (m : Monitor) :
    Attends m₀ entry m (m.perform react command).1 := by
  cases command with
  | register key s =>
    obtain ⟨name, rfl⟩ := hproper
    refine attends_move m (v := .register key (.outside name)) ?_
    rintro requester ⟨_, heq⟩
    cases heq
  | unregister key s => exact attends_move m (v := .unregister key s) trivial
  | unregisterAll requester => exact attends_move m (v := .unregisterAll requester) trivial
  | unlisten listener => exact attends_move m (v := .unlisten listener) hproper
  | reset | attach | detach | evaluate | edit | active => cases hdiscreet
  | _ =>
    refine overlooksEvaluation_attends.perform (fun m v hswitch => attends_move m ?_)
      (overlooksEntries_attends.openList m)
      (fun hwatches => overlooksEntries_attends.perform hwatches react m) rfl
    cases v with
    | unlisten | register | note | display => cases hswitch
    | active =>
      obtain ⟨_, heq⟩ := hswitch
      cases heq
    | _ => trivial

theorem attends_of_gives
    (h : m.Gives (fun command => command.Discreet ∧ command.Proper) → Attends m₀ entry m m') :
    Attends m₀ entry m m' :=
  fun hposed => h (fun named hnamed command hmem =>
    ⟨hposed.gives named hnamed command hmem, hposed.tended.proper named hnamed command hmem⟩) hposed

theorem attends_reactOutside (name : String) (m : Monitor) :
    Attends m₀ entry m (m.reactOutside (performWithin reactionDepth) name).1 :=
  lasting_attends.reactOutside _ (fun _ _ => attends_of_gives)
    (fun _ hcommand => lasting_attends.performWithin
      (fun react => attends_perform react hcommand.1 hcommand.2) reactionDepth) name m

theorem attends_evaluateAttached (requester : Requester) (m : Monitor) :
    Attends m₀ entry m (m.evaluateAttached requester).1 := by
  unfold evaluateAttached
  split
  · exact overlooksEvaluation_attends.evaluate m _
  · exact lasting_attends.refl m

/-- None of the networks that are due is left out. -/
theorem attends_flush (m : Monitor) : Attends m₀ entry m m.flush.1 := by
  intro h
  have hunmarked : Poised m₀ { m with display.due := [] } :=
    h.of_display (h.tended.of_due .nil) (.refl _) h.current (by simp)
  have hforEach : Attends m₀ entry { m with display.due := [] } m.flush.1 :=
    lasting_attends.forEach (fun requester _ m => attends_evaluateAttached requester m) _
  obtain ⟨hflushed, hattends⟩ := hforEach hunmarked
  refine ⟨hflushed, fun hattentive => ?_⟩
  obtain ⟨hattentive', events, hjournal, howed⟩ :=
    hattends ⟨hattentive.regular, hattentive.monitoring, hattentive.attached⟩
  refine ⟨hattentive', events, hjournal, fun hall => ?_⟩
  rcases hall.cases with hsince | ⟨hdue, hnone⟩
  · exact howed (hsince.mono False.elim)
  · obtain ⟨nets, -, hnets, hrefreshed⟩ := h.tended.refreshed_flush hattentive.monitoring
      fun entry hentry hdue => h.evaluable hattentive.regular hentry hdue
    have hevaluated : entry.2 ∈ nets := (hnets entry.2).2 ⟨entry.1, hdue, hattentive.attached⟩
    have hevaluations : events.filterMap Event.evaluated? = nets := by
      have hall := hrefreshed.evaluations
      rw [evaluations, hjournal, List.filterMap_append] at hall
      exact List.append_cancel_right hall
    rw [← hevaluations] at hevaluated
    obtain ⟨event, hmem, hevent⟩ := List.mem_filterMap.1 hevaluated
    cases event with
    | evaluated net =>
      obtain rfl := Option.some.inj hevent
      exact absurd hmem hnone
    | _ => cases hevent

theorem attends_tellAll (m : Monitor) : Attends m₀ entry m (m.tellAll reactor) := by
  refine overlooksEvaluation_attends.tellAll m (fun m listener => ?_) fun listener m => ?_
  · exact attends_move m (v := .note (.told listener)) id
  · cases listener with
    | outside name => exact attends_reactOutside name m
    | display => exact attends_flush m

theorem mem_due_markDue {other : Requester} :
    other ∈ (m.markDue requester).display.due ↔ other = requester ∨ other ∈ m.display.due := by
  unfold markDue
  split
  · rename_i hdue
    rw [iff_or_self]
    rintro rfl
    exact hdue
  · exact List.mem_cons

/-- Bytes that are handed to a display mark its network. -/
theorem attends_notify_display (hclear : m₀.Clear requester) (m : Monitor) (key : RegistrationKey)
    (data : Bytes) (stamp : Nat) :
    Attends m₀ entry m (m.notify reactor key data (.display requester stamp)) := by
  intro h
  have hnotify : m.notify reactor key data (.display requester stamp) =
      (m.note (.delivered key (.display requester stamp) data)).markDue requester := rfl
  have hnoted := h.move (v := .note (.delivered key (.display requester stamp) data)) (by simp)
    (by simp) (by simp)
  rw [hnotify]
  generalize hm : (m.note (.delivered key (.display requester stamp) data)).markDue requester = m'
  obtain ⟨due, heq⟩ : ∃ due, m' =
      { m.note (.delivered key (.display requester stamp) data) with display.due := due } := by
    rw [← hm]
    unfold markDue
    split
    · exact ⟨_, rfl⟩
    · exact ⟨_, rfl⟩
  have hdue (other : Requester) : other ∈ due ↔ other = requester ∨ other ∈ m.display.due := by
    have hmem : other ∈ ((m.note (.delivered key (.display requester stamp) data)).markDue
        requester).display.due ↔ other = requester ∨ other ∈ m.display.due := mem_due_markDue
    rwa [hm, heq] at hmem
  have htended : m'.Tended := by
    rw [← hm]
    exact overlooks_tends.markDue _ requester hnoted.tended
  subst heq
  refine ⟨hnoted.of_display htended (.refl _) hnoted.current fun other hother => ?_,
    fun hattentive => ⟨⟨hattentive.regular, hattentive.monitoring, hattentive.attached⟩, ?_⟩⟩
  · rcases (hdue other).1 hother with rfl | hold
    · exact hclear
    · exact h.due other hold
  · refine ⟨[_], rfl, fun howed => (hdue entry.1).2 ?_⟩
    obtain ⟨-, ⟨_, hdisplays⟩ | hbefore⟩ := howed
    · exact .inl (Subscriber.display.inj hdisplays).1.symm
    · exact .inr hbefore

theorem attends_notify (hclear : ∀ requester, s.Displays requester → m₀.Clear requester)
    (m : Monitor) (key : RegistrationKey) (data : Bytes) :
    Attends m₀ entry m (m.notify reactor key data s) := by
  have hnoted (hother : ¬ s.Displays entry.1) :
      Attends m₀ entry m (m.note (.delivered key s data)) :=
    attends_move (v := .note (.delivered key s data)) m hother
  cases s with
  | display requester stamp =>
    exact attends_notify_display (hclear requester ⟨stamp, rfl⟩) m key data stamp
  | outside name =>
    refine overlooksEvaluation_attends.reportIf (lasting_attends.trans (hnoted ?_) ?_) _
    · rintro ⟨_, heq⟩
      cases heq
    · exact attends_reactOutside name _
  | watch serial r stamp =>
    refine overlooksEvaluation_attends.reportIf (lasting_attends.trans (hnoted ?_) ?_) _
    · rintro ⟨_, heq⟩
      cases heq
    · exact overlooksEntries_attends.showValue _ serial r data

theorem attends_serve (m : Monitor) (start : Int) (data : Bytes) (r : Registration) :
    Attends m₀ entry m (m.serve reactor start data r) := by
  unfold serve
  simp only
  split
  · exact lasting_attends.refl m
  · intro h
    refine lasting_attends.foldl_of_mem (fun s hs m => ?_) m h
    obtain ⟨x, hx, -, hsub⟩ := exists_record_of_subscribersOf hs
    exact attends_notify
      (fun requester hdisplays => h.registered x hx requester ⟨s, hsub, hdisplays⟩)
      m r.key _

theorem attends_marker (m : Monitor) (requester : Requester) :
    Attends m₀ entry m (m.marker requester).1 := by
  intro h
  have htended := m.tends_marker requester h.tended
  rcases m.marker_cases requester with ⟨s, -, heq⟩ | ⟨-, heq⟩
  · rw [heq]
    exact lasting_attends.refl m h
  · rw [heq] at htended ⊢
    have hstamped : Attends m₀ entry m m.stamp.1 := attends_move (v := .stamp) m trivial
    refine lasting_attends.trans hstamped ?_ h
    refine attends_display _ (fun h => ?_) (fun _ hattentive => hattentive.attached) fun _ _ => id
    exact h.of_display htended (.refl _) h.current h.due

/-- A network is polled only if its symbols can be resolved. -/
theorem attends_sync (m : Monitor) (net : Nat) :
    Attends m₀ entry m (m.sync (m₀.requesterOf net) net).1 := by
  intro h
  obtain ⟨stamp, hstamp⟩ := h.tended.markers.marker (m₀.requesterOf net)
  by_cases hresolves : ∀ fault, ¬ m₀.workspace.Baffles net fault
  · refine lasting_attends.sync net (attends_marker m _) (fun m range => ?_) (fun m range => ?_) h
    · rw [hstamp]
      refine attends_move m (v := .register ⟨_, range⟩ (.display _ stamp)) ?_
      rintro requester ⟨_, heq⟩
      obtain ⟨rfl, -⟩ := Subscriber.display.inj heq
      exact ⟨rfl, net, rfl, hresolves⟩
    · exact attends_move m (v := .unregister ⟨_, range⟩ _) trivial
  · push Not at hresolves
    obtain ⟨fault, hbaffles⟩ := hresolves
    rw [sync_of_baffles (h.alike.symm.baffles hbaffles)]
    exact attends_marker m _ h

theorem attends_attach (m : Monitor) (net : Nat) : Attends m₀ entry m (m.attach net).1 := by
  intro h
  have hrequester := h.requesterOf_eq net
  refine overlooksEvaluation_attends.attach m net ?_ (fun m' => ?_) h
  · refine attends_display _ (fun h => ?_) (fun h hattentive => ?_) fun _ _ => id
    · refine h.of_display (m.tends_entered net h.tended) (.refl _) (fun entry hentry => ?_) h.due
      rcases Assoc.mem_of_mem_set hentry with rfl | hold
      · exact m.workspace.current_modify_invalidate net
      · exact h.current entry hold
    · refine Assoc.mem_set_of_mem hattentive.attached fun hkey => ?_
      rw [h.tended.named entry hattentive.attached, h.requesterOf_eq, hrequester] at hkey
      exact hattentive.regular.apart hkey
  · rw [hrequester]
    exact attends_sync m' net

/-- Another network may be detached. -/
theorem attends_detach (m : Monitor) (hother : net ≠ entry.2) :
    Attends m₀ entry m (m.detach net) := by
  intro h
  refine lasting_attends.detach net ?_ (fun m => attends_move (v := .unregisterAll _) m trivial) h
  have hapart (hattentive : Attentive m₀ entry m) : entry.1 ≠ m.requesterOf net := by
    rw [h.tended.named entry hattentive.attached, h.requesterOf_eq, h.requesterOf_eq]
    exact fun hsame => hother (hattentive.regular.apart hsame).symm
  refine attends_display m (fun h => ?_) (fun _ hattentive => ?_) fun _ hattentive hdue => ?_
  · exact h.of_display (m.tends_forgotten _ h.tended) (.refl _)
      (fun entry hentry => h.current entry (List.mem_of_mem_filter hentry))
      fun requester hdue => h.due requester (List.mem_of_mem_filter hdue)
  · exact List.mem_filter.2 ⟨hattentive.attached, by simpa using hapart hattentive⟩
  · exact List.mem_filter.2 ⟨hdue, by simpa using hapart hattentive⟩

theorem overlooksLoop_attends : OverlooksLoop (Attends m₀ entry) where
  move := by
    intro m v hloop
    refine attends_move m ?_
    cases v with
    | register | unlisten | note | display | active => cases hloop
    | _ => trivial
  closeTick := by
    intro m tick h
    have htended := overlooksLoop_tends.closeTick m tick h.tended
    obtain ⟨_, heq⟩ := m.closeTick_eq tick
    rw [heq] at htended ⊢
    exact ⟨⟨htended, h.gives, h.alike, h.current, h.registered, h.due⟩,
      fun hattentive => ⟨⟨hattentive.regular, hattentive.monitoring, hattentive.attached⟩,
        .of_eq rfl id⟩⟩

/-- Whether a turn, if it is a call, neither edits nor resets. -/
def Turn.Unobtrusive : Turn → Prop
  | command c => c.Unobtrusive
  | _ => True

/-- Whatever happens to the other networks, a network that is owed an evaluation is due. -/
theorem attends_turn (m : Monitor) {v : Turn} (hv : v.Unobtrusive)
    (hkept : v ≠ .command (.detach entry.2)) : Attends m₀ entry m (m.turn reactor v) := by
  cases v with
  | command command =>
    cases command with
    | attach net => exact attends_attach m net
    | detach net => exact attends_detach m fun hsame => hkept (by rw [hsame])
    | evaluate net => exact overlooksEvaluation_attends.evaluate m net
    | _ => exact attends_perform reactor hv.1 hv.2 m
  | _ =>
    refine overlooksLoop_attends.turn_of lasting_attends rfl (attends_tellAll m) ?_
      overlooksEvaluation_attends.reported
    intro ticket data read heq hhandled
    rw [heq] at hhandled ⊢
    rw [turn_reply_ok hhandled]
    exact lasting_attends.foldl (fun m r => attends_serve m read.batch.start data r) _ _

end Monitor

end LadderMonitor
