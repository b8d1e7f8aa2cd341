import LadderMonitor.Proofs.Monitor.Apart

namespace LadderMonitor

namespace Monitor

variable {m m' : Monitor} {net : Nat} {requester : Requester} {s s' : Subscriber}
  {k : RegistrationKey} {fault : Fault} {ranges : List ByteRange}

/-- What is registered for others is as it was, in the same order. -/
def SparesOthers (requester : Requester) (m m' : Monitor) : Prop :=
  Registry.removeAll requester m'.registry = Registry.removeAll requester m.registry

theorem lasting_sparesOthers : Lasting (SparesOthers requester) where
  refl := fun _ => rfl
  trans := fun h h' => h'.trans h

theorem overlooks_sparesOthers : Overlooks (SparesOthers requester) :=
  .of_shown lasting_sparesOthers (fun _ _ => rfl) (fun _ _ => rfl) fun _ _ _ _ _ => rfl

theorem sparesOthers_register (m : Monitor) (range : ByteRange) (s : Subscriber) :
    SparesOthers requester m (m.register ⟨requester, range⟩ s).1 := by
  rcases m.register_cases ⟨requester, range⟩ s with heq | ⟨-, heq⟩
  · rw [heq]
    exact lasting_sparesOthers.refl m
  · rw [heq, SparesOthers, registry_startIfActive]
    exact Registry.removeAll_add rfl

theorem sparesOthers_unregister (m : Monitor) (range : ByteRange) (s : Subscriber) :
    SparesOthers requester m (m.unregister ⟨requester, range⟩ s) := by
  obtain ⟨_, heq⟩ := m.unregister_eq ⟨requester, range⟩ s
  rw [heq]
  exact Registry.removeAll_remove rfl

theorem sparesOthers_sync (m : Monitor) (requester : Requester) (net : Nat) :
    SparesOthers requester m (m.sync requester net).1 := by
  refine lasting_sparesOthers.sync net ?_ (fun m range => m.sparesOthers_register range _)
    fun m range => m.sparesOthers_unregister range _
  obtain ⟨_, _, heq, -⟩ := m.marker_spec requester
  rw [heq]
  rfl

theorem sparesOthers_attach (m : Monitor) (net : Nat) :
    SparesOthers (m.requesterOf net) m (m.attach net).1 :=
  overlooks_sparesOthers.attach m net rfl fun m' => m'.sparesOthers_sync _ net

/-- Registrations stop at the first range at which the active predicate fails; this one is
registered by then. -/
theorem registerAll_stopped (hfault : (m.registerAll requester s ranges).2 = some fault) :
    fault = .activeFailed ∧ ¬ m.Monitoring ∧ ∃ done left, ranges = done ++ left ∧ done ≠ [] ∧
      ∀ k s', (m.registerAll requester s ranges).1.registry.Holds k s' ↔
        (k.requester = requester ∧ s' = s ∧ k.range ∈ done ∧ 0 ≤ k.range.start ∧
          0 < k.range.size) ∨ m.registry.Holds k s' := by
  obtain ⟨done, range, left, hsplit, hreturned, hstopped⟩ := Outcome.forEach_stopped hfault
  have hdone : (m.registerAll requester s done).2 = none := hreturned
  have hlast : m.registerAll requester s ranges =
      (m.registerAll requester s done).1.register ⟨requester, range⟩ s := hstopped
  rw [hlast] at hfault ⊢
  obtain ⟨hactive, hnot⟩ := register_fault hfault
  have hkept := (m.sameDisplay_registerAll requester s done).monitoring
  refine ⟨hactive, hnot ∘ hkept, done ++ [range], left, by simp [hsplit], by simp, fun k s' => ?_⟩
  rw [holds_register, holds_registerAll hdone]
  obtain ⟨other, range'⟩ := k
  simp only [RegistrationKey.mk.injEq, List.mem_append, List.mem_singleton]
  constructor
  · rintro (⟨⟨hr, hrange⟩, hs, hstart, hsize⟩ | ⟨hr, hs, hmem, hstart, hsize⟩ | hholds)
    · rw [hrange]
      exact .inl ⟨hr, hs, .inr rfl, hstart, hsize⟩
    · exact .inl ⟨hr, hs, .inl hmem, hstart, hsize⟩
    · exact .inr hholds
  · rintro (⟨hr, hs, hmem | hrange, hstart, hsize⟩ | hholds)
    · exact .inr (.inl ⟨hr, hs, hmem, hstart, hsize⟩)
    · rw [hrange] at hstart hsize
      exact .inl ⟨⟨hr, hrange⟩, hs, hstart, hsize⟩
    · exact .inr (.inr hholds)

/-- A network is not resolved anew because a symbol cannot be resolved, and then only its marker may
be new, or because the active predicate fails while its ranges are registered. -/
theorem sync_stopped (hfault : (m.sync requester net).2 = some fault) :
    (m.workspace.Baffles net fault ∧ (m.sync requester net).1 = (m.marker requester).1) ∨
      (∀ other, ¬ m.workspace.Baffles net other) ∧
      ∃ wanted, (∀ range, range ∈ wanted ↔ m.workspace.Lie net range) ∧
        (m.marker requester).1.registerAll requester (m.marker requester).2 wanted =
          ((m.sync requester net).1, some fault) := by
  obtain ⟨nextStamp, markers, hmarked, -⟩ := m.marker_spec requester
  have hworkspace : (m.marker requester).1.workspace = m.workspace := by
    rw [hmarked]
    rfl
  have hproject : (m.marker requester).1.project = m.workspace.project :=
    congrArg Workspace.project hworkspace
  unfold sync at hfault ⊢
  simp only [hworkspace, hproject] at hfault ⊢
  cases hranges : Block.ranges m.workspace.project
      (((m.workspace.network? net).map (·.blocks)).getD []) with
  | error other =>
    rw [hranges] at hfault
    obtain rfl := Option.some.inj hfault
    exact .inl ⟨Block.ranges_fault hranges, rfl⟩
  | ok wanted =>
    rw [hranges] at hfault
    refine .inr ⟨Block.not_baffle_of_ranges hranges, wanted, fun range => Block.mem_ranges hranges,
      ?_⟩
    rcases Outcome.andThen_fault hfault with hregistered | ⟨-, hdropped⟩
    · simp only
      rcases hall : (m.marker requester).1.registerAll requester (m.marker requester).2 wanted with
        ⟨m', other⟩
      rw [hall] at hregistered
      obtain rfl : other = some fault := hregistered
      rfl
    · cases hdropped

/-- A network that has been resolved anew has symbols that can be resolved. -/
theorem not_baffles_of_sync (hreturns : (m.sync requester net).2 = none) (fault : Fault) :
    ¬ m.workspace.Baffles net fault := by
  obtain ⟨nextStamp, markers, hmarked, -⟩ := m.marker_spec requester
  have hworkspace : (m.marker requester).1.workspace = m.workspace := by
    rw [hmarked]
    rfl
  have hproject : (m.marker requester).1.project = m.workspace.project :=
    congrArg Workspace.project hworkspace
  unfold sync at hreturns
  simp only [hworkspace, hproject] at hreturns
  split at hreturns
  · cases hreturns
  · rename_i wanted hranges
    exact Block.not_baffle_of_ranges hranges fault

/-- An evaluation changes what networks show, and asks the active predicate. -/
theorem evaluate_eq (m : Monitor) (net : Nat) :
    ∃ active journal workspace, m.workspace.SameNames workspace ∧
      (m.evaluate net).1 = { m with active, journal, display.workspace := workspace } := by
  have hsame : m.workspace.SameNames m.workspace := fun _ => rfl
  unfold evaluate
  split
  · rename_i heq
    obtain ⟨-, rfl⟩ := Prod.mk.inj heq
    exact ⟨_, _, _, hsame, rfl⟩
  · rename_i heq
    obtain ⟨-, rfl⟩ := Prod.mk.inj heq
    exact ⟨_, _, _, hsame, rfl⟩
  · rename_i asked heq
    obtain ⟨-, rfl⟩ := Prod.mk.inj heq
    split
    · exact ⟨_, _, _, hsame, rfl⟩
    · rename_i n hnet
      refine ⟨_, _, _, m.workspace.sameNames_modify net fun n' hn' => ?_, rfl⟩
      obtain rfl := Option.some.inj (hnet.symm.trans hn')
      exact Network.name_of_bare (n.bare_evaluate _ _)

/-- How far the registrations of a network had come when attaching it failed. -/
inductive Stopped (m : Monitor) (net : Nat) (s : Subscriber) (m' : Monitor) : Fault → Prop where
  /-- A symbol could not be resolved: the registrations are those from before. -/
  | resolving {fault : Fault} (baffles : m.workspace.Baffles net fault)
      (registry : m'.registry = m.registry) : Stopped m net s m' fault
  /-- The active predicate failed while ranges were registered: besides the registrations from
  before there are those of the ranges up to this one, and none has been dropped. -/
  | registering (done left : List ByteRange) (some : done ≠ []) (fails : ¬ m.Monitoring)
      (resolves : ∀ other, ¬ m.workspace.Baffles net other)
      (wanted : ∀ range, range ∈ done ++ left ↔ m.workspace.Lie net range)
      (holds : ∀ k s', m'.registry.Holds k s' ↔
        (k.requester = m.requesterOf net ∧ s' = s ∧ k.range ∈ done ∧ 0 ≤ k.range.start) ∨
          m.registry.Holds k s') : Stopped m net s m' .activeFailed
  /-- The active predicate failed before the evaluation, or a value was refused in it for a reason
  that has no words: the registrations are those of a network that is attached. -/
  | evaluating {fault : Fault}
      (fails : fault = .activeFailed ∧ ¬ m.Monitoring ∨ ¬ fault.isWordable)
      (resolves : ∀ other, ¬ m.workspace.Baffles net other)
      (holds : ∀ k s', m'.registry.Holds k s' ↔
        if k.requester = m.requesterOf net ∧ s' = s then
          m.workspace.Lie net k.range ∧ 0 ≤ k.range.start
        else m.registry.Holds k s') : Stopped m net s m' fault

/-- What an attachment that fails leaves behind. -/
structure HalfAttached (m : Monitor) (net : Nat) (fault : Fault) (m' : Monitor) : Prop where
  requester : m'.requesterOf net = m.requesterOf net
  /-- The network is recorded under its requester. -/
  attached : m'.display.attached = Assoc.set (m.requesterOf net) net m.display.attached
  /-- There is a marker for the requester, the one from before if there was one, and the
  registrations are as far as they had come. -/
  marker : ∃ s, m'.display.markers = Assoc.set (m.requesterOf net) s m.display.markers ∧
    (∀ s', Assoc.get? (m.requesterOf net) m.display.markers = some s' → s = s') ∧
    Stopped m net s m' fault
  /-- What is registered for others is as it was. -/
  others : Registry.removeAll (m.requesterOf net) m'.registry =
    Registry.removeAll (m.requesterOf net) m.registry

/-- The attached networks, their markers and the registrations are those from before. -/
structure SameRecords (m m' : Monitor) : Prop where
  attached : m'.display.attached = m.display.attached
  markers : m'.display.markers = m.display.markers
  registry : m'.registry = m.registry

/-- They are those from before, without those of a requester. -/
structure Forgotten (requester : Requester) (m m' : Monitor) : Prop where
  attached : m'.display.attached = Assoc.erase requester m.display.attached
  markers : m'.display.markers = Assoc.erase requester m.display.markers
  registry : m'.registry = Registry.removeAll requester m.registry

/-- Whether nothing is recorded or registered for a requester. -/
structure Unknown (m : Monitor) (requester : Requester) : Prop where
  attached : Assoc.get? requester m.display.attached = none
  markers : Assoc.get? requester m.display.markers = none
  registry : Registry.ofRequester requester m.registry = []

theorem Forgotten.sameRecords (h : Forgotten requester m m') (hunknown : m.Unknown requester) :
    SameRecords m m' where
  attached := by rw [h.attached, Assoc.erase_eq_self hunknown.attached]
  markers := by rw [h.markers, Assoc.erase_eq_self hunknown.markers]
  registry := by rw [h.registry, Registry.removeAll_eq_self hunknown.registry]

/-- Where the registrations stop when a network cannot be resolved anew. -/
theorem stopped_of_sync {before : Monitor} (hsame : SameRegistrations m before)
    (hworkspace : before.workspace = m.workspace.modify net Network.invalidate)
    (hfault : (before.sync (m.requesterOf net) net).2 = some fault) :
    Stopped m net (before.marker (m.requesterOf net)).2
      (before.sync (m.requesterOf net) net).1 fault := by
  have halike : m.workspace.Alike before.workspace := hworkspace ▸ .invalidate m.workspace net
  obtain ⟨_, _, hmarked, -⟩ := before.marker_spec (m.requesterOf net)
  have hregistry : (before.marker (m.requesterOf net)).1.registry = m.registry := by
    rw [hmarked]
    exact hsame.registry
  rcases sync_stopped hfault with ⟨hbaffles, heq⟩ | ⟨hresolves, wanted, hwanted, hregisters⟩
  · refine .resolving (halike.baffles hbaffles) ?_
    rw [heq, hregistry]
  · obtain ⟨rfl, hnot, done, left, rfl, hsome, hholds⟩ :=
      registerAll_stopped (congrArg Prod.snd hregisters)
    have hlie : before.workspace.Lie net = m.workspace.Lie net := by
      rw [hworkspace, Workspace.lie_invalidate]
    rw [hlie] at hwanted
    rw [hregisters, hregistry] at hholds
    refine .registering done left hsome (fun hmonitoring => hnot ?_)
      (fun other hbaffles => hresolves other (halike.symm.baffles hbaffles)) hwanted fun k s' => ?_
    · refine hmonitoring.of_eq ?_
      rw [hmarked]
      exact hsame.active
    · rw [hholds]
      refine or_congr_left (and_congr_right fun _ => and_congr_right fun _ => ?_)
      refine and_congr_right fun hmem => and_iff_left ?_
      exact Block.size_pos_of_lie ((hwanted k.range).1 (List.mem_append_left left hmem))

/-- Where the registrations stop when a network that has been resolved anew cannot be evaluated. -/
theorem stopped_of_evaluate {before : Monitor} (hreachable : before.Reachable)
    (hsame : SameRegistrations m before)
    (hworkspace : before.workspace = m.workspace.modify net Network.invalidate)
    (hreturned : (before.sync (m.requesterOf net) net).2 = none)
    (hfault : ((before.sync (m.requesterOf net) net).1.evaluate net).2 = some fault) :
    Stopped m net (before.marker (m.requesterOf net)).2
      ((before.sync (m.requesterOf net) net).1.evaluate net).1 fault := by
  have hsynced := before.sameShown_sync (m.requesterOf net) net
  have halike : m.workspace.Alike before.workspace := hworkspace ▸ .invalidate m.workspace net
  have hcurrent := m.workspace.current_modify_invalidate net
  rw [← hworkspace, ← hsynced.workspace] at hcurrent
  have hresolves (other : Fault) : ¬ m.workspace.Baffles net other :=
    fun hbaffles => not_baffles_of_sync hreturned other (halike.symm.baffles hbaffles)
  have hfails : fault = .activeFailed ∧ ¬ m.Monitoring ∨ ¬ fault.isWordable := by
    rcases evaluate_fault hcurrent hfault with ⟨hactive, hnot⟩ | hbaffles | hwordless
    · exact .inl ⟨hactive, fun hmonitoring =>
        hnot (hsynced.monitoring (hmonitoring.of_eq hsame.active))⟩
    · rw [hsynced.workspace] at hbaffles
      exact absurd (halike.baffles hbaffles) (hresolves fault)
    · exact .inr hwordless
  refine .evaluating hfails hresolves fun k s' => ?_
  obtain ⟨_, _, _, -, heq⟩ := evaluate_eq (before.sync (m.requesterOf net) net).1 net
  have hlie : before.workspace.Lie net = m.workspace.Lie net := by
    rw [hworkspace, Workspace.lie_invalidate]
  have hheld := holds_sync (k := k) (s := s') hreachable hreturned
  rw [hlie, hsame.registry] at hheld
  rw [heq]
  exact hheld

theorem halfAttached_attach (hreachable : m.Reachable) (hfault : (m.attach net).2 = some fault) :
    HalfAttached m net fault (m.attach net).1 := by
  have hothers := m.sparesOthers_attach net
  obtain ⟨before, heq, hleads, hsame, hattached, hworkspace⟩ := m.attach_spec net
  have hsynced := before.sameShown_sync (m.requesterOf net) net
  have hattached := hsynced.attached.trans hattached
  have hmarkers : (before.sync (m.requesterOf net) net).1.display.markers =
      Assoc.set (m.requesterOf net) (before.marker (m.requesterOf net)).2 m.display.markers := by
    rw [markers_sync, hsame.markers]
  have hold (s' : Subscriber)
      (hs' : Assoc.get? (m.requesterOf net) m.display.markers = some s') :
      (before.marker (m.requesterOf net)).2 = s' := by
    obtain ⟨_, _, -, -, hold, -⟩ := before.marker_spec (m.requesterOf net)
    exact hold s' (hsame.markers ▸ hs')
  have hnames : m.workspace.SameNames (before.sync (m.requesterOf net) net).1.workspace := by
    rw [hsynced.workspace, hworkspace]
    exact m.workspace.sameNames_modify net fun _ _ => rfl
  rw [heq] at hfault hothers ⊢
  rcases Outcome.andThen_fault hfault with hfault | ⟨hreturned, hfault⟩
  · have hstopped := stopped_of_sync hsame hworkspace hfault
    rw [Outcome.andThen_eq_of_some hfault] at hothers ⊢
    exact ⟨requesterOf_congr hnames net, hattached, ⟨_, hmarkers, hold, hstopped⟩, hothers⟩
  · have hstopped := stopped_of_evaluate (hreachable.of_runs hleads.runs) hsame hworkspace
      hreturned hfault
    rw [Outcome.andThen_eq_of_none hreturned] at hothers ⊢
    obtain ⟨_, _, workspace, hsamenames, hevaluated⟩ :=
      evaluate_eq (before.sync (m.requesterOf net) net).1 net
    rw [hevaluated] at hstopped hothers ⊢
    refine ⟨requesterOf_congr (fun other => ?_) net, hattached, ⟨_, hmarkers, hold, hstopped⟩,
      hothers⟩
    exact (hsamenames other).trans (hnames other)

/-- To detach a half attached network takes all of it back. -/
theorem HalfAttached.forgotten (h : HalfAttached m net fault m') :
    Forgotten (m.requesterOf net) m (m'.detach net) := by
  have hentry : Assoc.get? (m.requesterOf net) m'.display.attached = some net := by
    rw [h.attached, Assoc.get?_set, if_pos rfl]
  obtain ⟨s, hmarkers, -, -⟩ := h.marker
  have hattached : Assoc.erase (m.requesterOf net) m'.display.attached =
      Assoc.erase (m.requesterOf net) m.display.attached := by rw [h.attached, Assoc.erase_set]
  have hmarkers : Assoc.erase (m.requesterOf net) m'.display.markers =
      Assoc.erase (m.requesterOf net) m.display.markers := by rw [hmarkers, Assoc.erase_set]
  have hdetach : m'.detach net = unregisterAll (m.requesterOf net) { m' with
      display.markers := Assoc.erase (m.requesterOf net) m'.display.markers
      display.due := m'.display.due.filter (· ≠ m.requesterOf net)
      display.attached := Assoc.erase (m.requesterOf net) m'.display.attached } := by
    unfold detach
    simp only [h.requester, hentry]
  obtain ⟨_, heq⟩ := unregisterAll_eq { m' with
      display.markers := Assoc.erase (m.requesterOf net) m'.display.markers
      display.due := m'.display.due.filter (· ≠ m.requesterOf net)
      display.attached := Assoc.erase (m.requesterOf net) m'.display.attached } (m.requesterOf net)
  rw [hdetach, heq]
  exact ⟨hattached, hmarkers, h.others⟩

/-- A network that is attached already stays as it was when a symbol of it cannot be resolved. -/
theorem HalfAttached.sameRecords (h : HalfAttached m net fault m') {other : Fault}
    (hbaffles : m.workspace.Baffles net other)
    (hattached : Assoc.get? (m.requesterOf net) m.display.attached = some net)
    (hmarker : Assoc.get? (m.requesterOf net) m.display.markers ≠ none) : SameRecords m m' := by
  obtain ⟨s, hmarkers, hold, hstopped⟩ := h.marker
  obtain ⟨s', hs'⟩ := Option.ne_none_iff_exists'.1 hmarker
  obtain rfl := hold s' hs'
  refine ⟨by rw [h.attached, Assoc.set_eq_self hattached],
    by rw [hmarkers, Assoc.set_eq_self hs'], ?_⟩
  cases hstopped with
  | resolving _ hregistry => exact hregistry
  | registering _ _ _ _ hresolves => exact absurd hbaffles (hresolves other)
  | evaluating _ hresolves => exact absurd hbaffles (hresolves other)

/-- What an attachment that fails leaves behind, and how it is taken back.

The network is recorded under its requester and has a marker, what is recorded and registered for
others is as it was, and the registrations of the network are as far as they had come: those from
before if a symbol cannot be resolved, those from before and some new ones if the active predicate
fails in between, and those of an attached network if it fails at the end, or if a value is refused
then for a reason that has no words. To detach the network takes back what the attachment did,
together with all that was there for the requester before; if there was nothing, everything is as it
was. And nothing changes when a symbol of a network cannot be resolved that is attached already. -/
theorem attach_fails_halfway (hreachable : m.Reachable) (hfault : (m.attach net).2 = some fault) :
    HalfAttached m net fault (m.attach net).1 ∧
      Forgotten (m.requesterOf net) m ((m.attach net).1.detach net) ∧
      (m.Unknown (m.requesterOf net) → SameRecords m ((m.attach net).1.detach net)) ∧
      ∀ other, m.workspace.Baffles net other →
        Assoc.get? (m.requesterOf net) m.display.attached = some net →
        Assoc.get? (m.requesterOf net) m.display.markers ≠ none →
        SameRecords m (m.attach net).1 := by
  have hhalf := halfAttached_attach hreachable hfault
  exact ⟨hhalf, hhalf.forgotten, hhalf.forgotten.sameRecords, fun _ => hhalf.sameRecords⟩

/-- A display of one network with two lamps, whose active predicate says no and then fails. -/
def wavering : Monitor :=
  { createDisplay {} {}
      { project := { Project.empty with
          networks := [⟨"lamps", "", [contact "p" "0.0", contact "q" "4.0"], []⟩] } } with
    active := some { queued := [.no], lasting := .failing } }

theorem reachable_wavering : wavering.Reachable :=
  .fresh ⟨rfl, rfl, rfl, List.nodup_singleton _⟩

theorem wavering_attach_fails_halfway :
    HalfAttached wavering 0 .activeFailed (wavering.attach 0).1 ∧
      Forgotten (wavering.requesterOf 0) wavering ((wavering.attach 0).1.detach 0) ∧
      (wavering.Unknown (wavering.requesterOf 0) →
        SameRecords wavering ((wavering.attach 0).1.detach 0)) ∧
      ∀ other, wavering.workspace.Baffles 0 other →
        Assoc.get? (wavering.requesterOf 0) wavering.display.attached = some 0 →
        Assoc.get? (wavering.requesterOf 0) wavering.display.markers ≠ none →
        SameRecords wavering (wavering.attach 0).1 :=
  attach_fails_halfway reachable_wavering (by decide +kernel)

/-- A display of one network with a symbol that cannot be resolved. -/
def unplaced : Monitor :=
  createDisplay {} {}
    { project := { Project.empty with networks := [⟨"lamps", "", [contact "p" "\u212a10"], []⟩] } }

/-- The attachments fail, of the one network because of the predicate and of the other because of
its symbol. Both networks are recorded afterwards, the ranges of the first are registered, and the
second makes every reset fail from then on. -/
theorem attach_not_taken_back :
    (wavering.Reachable ∧ (wavering.attach 0).2 = some .activeFailed ∧
        (wavering.registry = [] ∧ wavering.display.attached = []) ∧
        (wavering.attach 0).1.display.attached = [(.named "network:lamps", 0)] ∧
        (wavering.attach 0).1.registry.map (·.key) =
          [⟨.named "network:lamps", ⟨0, 1⟩⟩, ⟨.named "network:lamps", ⟨4, 1⟩⟩]) ∧
      (unplaced.Reachable ∧ (unplaced.attach 0).2 = some (.letterWithoutRegion '\u212a') ∧
        unplaced.display.attached = [] ∧
        (unplaced.attach 0).1.display.attached = [(.named "network:lamps", 0)] ∧
        (unplaced.reset reactor).2 = none ∧
        ((unplaced.attach 0).1.reset reactor).2 = some (.letterWithoutRegion '\u212a')) := by
  have hreachable : unplaced.Reachable := .fresh (fresh_createDisplay _ _ _)
  refine ⟨⟨reachable_wavering, ?_, ?_, ?_, ?_⟩, hreachable, ?_, ?_, ?_, ?_, ?_⟩
  all_goals decide +kernel

end Monitor

end LadderMonitor
