import LadderMonitor.Proofs.Monitor.Cache
import LadderMonitor.Proofs.Monitor.Flush
import LadderMonitor.Proofs.Monitor.Marking

namespace LadderMonitor

theorem Network.invalidate_invalidate (n : Network) : n.invalidate.invalidate = n.invalidate := by
  have hforget (b : Block) : b.forget.forget = b.forget := by
    cases hstate : b.state <;> simp [Block.forget, hstate]
  simp [invalidate, hforget]

namespace Monitor

variable {m m' : Monitor} {requester : Requester} {net : Nat} {entries : List (Requester × Nat)}

theorem network?_foldl_invalidate (nets : List Nat) (m : Monitor) (net : Nat) :
    (nets.foldl (fun m net => m.invalidate net) m).workspace.network? net =
      (m.workspace.network? net).map fun n => if net ∈ nets then n.invalidate else n := by
  induction nets generalizing m with
  | nil => simp
  | cons first rest ih =>
    have hfirst := m.workspace.network?_modify first net Network.invalidate
    rw [List.foldl_cons, ih]
    change ((m.workspace.modify first Network.invalidate).network? net).map _ = _
    rw [hfirst, Option.map_map]
    refine Option.map_congr fun n _ => ?_
    simp only [Function.comp_apply, List.mem_cons]
    by_cases hnow : first = net
    · simp [hnow, Network.invalidate_invalidate]
    · simp [hnow, Ne.symm hnow]

theorem network?_invalidateAll (hmem : (requester, net) ∈ m.display.attached) :
    m.invalidateAll.workspace.network? net =
      (m.workspace.network? net).map Network.invalidate := by
  have hattached : net ∈ m.display.attached.map (·.2) := List.mem_map_of_mem hmem
  rw [invalidateAll, network?_foldl_invalidate]
  refine Option.map_congr fun n _ => ?_
  rw [if_pos (List.mem_append_right _ hattached)]

/-- A marker that there is stays when networks are resolved anew. -/
theorem marker_kept_of_sync {s : Subscriber} (other : Requester) (net : Nat)
    (hs : Assoc.get? requester m.display.markers = some s) :
    Assoc.get? requester (m.sync other net).1.display.markers = some s := by
  rw [markers_sync, Assoc.get?_set]
  split
  · rename_i hown
    rw [marker, ← hown, hs]
  · exact hs

theorem marker_kept_of_forEach_sync {s : Subscriber} (entries : List (Requester × Nat))
    (hs : Assoc.get? requester m.display.markers = some s) :
    Assoc.get? requester
      (Outcome.forEach (fun (r, net) => sync r net) entries m).1.display.markers = some s := by
  have hlasting := lasting_keeps fun m => Assoc.get? requester m.display.markers = some s
  exact hlasting.forEach (fun entry _ m hs => marker_kept_of_sync entry.1 entry.2 hs) m hs

/-- When networks have been resolved anew one after the other, their markers are registered where
their symbols lie, and otherwise the registrations are as they were. -/
theorem holds_forEach_sync (hreachable : m.Reachable) (hnodup : (entries.map (·.1)).Nodup)
    (hreturns : Outcome.forEach (fun (r, net) => sync r net) entries m = (m', none)) :
    (∀ entry ∈ entries, Assoc.get? entry.1 m'.display.markers ≠ none) ∧
    ∀ k s, m'.registry.Holds k s ↔
      (∃ entry ∈ entries, k.requester = entry.1 ∧
        Assoc.get? entry.1 m'.display.markers = some s ∧ m.workspace.Lie entry.2 k.range ∧
          0 ≤ k.range.start) ∨
      m.registry.Holds k s ∧ ∀ entry ∈ entries, k.requester = entry.1 →
        Assoc.get? entry.1 m'.display.markers ≠ some s := by
  induction entries generalizing m with
  | nil =>
    obtain rfl := (Prod.mk.inj hreturns).1
    simp
  | cons entry rest ih =>
    obtain ⟨hapart, hrest⟩ := List.nodup_cons.1 hnodup
    obtain ⟨hreturned, heq⟩ := Outcome.forEach_cons (congrArg Prod.snd hreturns)
    rw [heq] at hreturns
    obtain ⟨hmarkers, hlater⟩ := ih (hreachable.of_runs (leads_sync m _ _).runs) hrest hreturns
    have hmarker : Assoc.get? entry.1 m'.display.markers = some (m.marker entry.1).2 := by
      have hmade : Assoc.get? entry.1 (m.sync entry.1 entry.2).1.display.markers =
          some (m.marker entry.1).2 := by
        rw [markers_sync, Assoc.get?_set, if_pos rfl]
      have hkept := marker_kept_of_forEach_sync rest hmade
      rwa [hreturns] at hkept
    refine ⟨List.forall_mem_cons.2 ⟨by simp [hmarker], hmarkers⟩, fun k s => ?_⟩
    rw [hlater, holds_sync hreachable hreturned, (m.sameShown_sync entry.1 entry.2).workspace]
    simp only [List.mem_cons, exists_eq_or_imp, forall_eq_or_imp, hmarker, Option.some.injEq]
    by_cases hown : k.requester = entry.1
    · have hothers : ∀ other ∈ rest, k.requester ≠ other.1 := fun other hother hsame =>
        hapart (List.mem_map.2 ⟨other, hother, hsame.symm.trans hown⟩)
      have hnone {Q : Requester × Nat → Prop} :
          ¬ ∃ other ∈ rest, k.requester = other.1 ∧ Q other := by
        rintro ⟨other, hother, hsame, -⟩
        exact hothers other hother hsame
      have hall {Q : Requester × Nat → Prop} :
          ∀ other ∈ rest, k.requester = other.1 → Q other :=
        fun other hother hsame => absurd hsame (hothers other hother)
      rw [or_iff_right hnone, and_iff_left hall, or_iff_left hnone, and_iff_left hall]
      by_cases hs : s = (m.marker entry.1).2
      · simp [hown, hs]
      · simp [hown, hs, Ne.symm hs]
    · simp [hown]

/-- The attached networks have been resolved anew: they have forgotten their resolutions, they are
polled at the ranges of their symbols, and what is due is as it was. -/
structure Resolved (m m' : Monitor) : Prop where
  runs : m.Runs m'
  tended : m'.Tended
  reactions : m'.reactions = m.reactions
  alike : m.workspace.Alike m'.workspace
  networks : ∀ entry ∈ m.display.attached,
    m'.workspace.network? entry.2 = (m.workspace.network? entry.2).map Network.invalidate
  attached : m'.display.attached = m.display.attached
  due : m'.display.due = m.display.due
  polled : ∀ entry ∈ m.display.attached, ∀ range, m.workspace.Lie entry.2 range →
    0 ≤ range.start → ∃ stamp, m'.registry.Holds ⟨entry.1, range⟩ (.display entry.1 stamp)
  monitoring : m.Monitoring → m'.Monitoring

theorem resolved_resolveAnew (hreachable : m.Reachable) (htended : m.Tended)
    (hreturns : m.resolveAnew.2 = none) : Resolved m m.resolveAnew.1 := by
  obtain ⟨hleads, hsame, hattached, hlie⟩ := m.invalidateAll_spec
  have htends : m.invalidateAll.Tended :=
    lasting_tends.foldl overlooks_tends.invalidate _ m htended
  have hdue : m.invalidateAll.display.due = m.display.due := by
    obtain ⟨_, heq, -⟩ := m.onlyShown_invalidateAll
    rw [heq]
  have hshown : SameShown m.invalidateAll m.resolveAnew.1 :=
    lasting_sameShown.forEach (fun entry _ m => m.sameShown_sync entry.1 entry.2) _
  have hnodup : (m.invalidateAll.display.attached.map (·.1)).Nodup := htends.attached
  have hresolved : m.resolveAnew.1.Tended :=
    overlooks_tends.resolveAnew m (fun entry _ m => m.tends_sync entry.1 entry.2) htended
  have hpolled : ∀ entry ∈ m.invalidateAll.display.attached, ∀ range,
      m.invalidateAll.workspace.Lie entry.2 range → 0 ≤ range.start → ∃ stamp,
        m.resolveAnew.1.registry.Holds ⟨entry.1, range⟩ (.display entry.1 stamp) := by
    intro entry hentry range hlies hstart
    obtain ⟨hmarkers, hholds⟩ := holds_forEach_sync (hreachable.of_runs hleads.runs) hnodup
      (Prod.ext rfl hreturns)
    obtain ⟨s, hs⟩ := Option.ne_none_iff_exists'.1 (hmarkers entry hentry)
    obtain ⟨stamp, rfl⟩ := hresolved.markers.eq_display hs
    exact ⟨stamp, (hholds _ _).2 (.inl ⟨entry, hentry, rfl, hs, hlies, hstart⟩)⟩
  rw [hattached, hlie] at hpolled
  exact
    { runs := (overlooksWatching_leads.resolveAnew m fun e _ m => (m.leads_sync e.1 e.2).leads).runs
      tended := hresolved
      reactions := hshown.reactions.trans hsame.reactions
      alike := hshown.workspace ▸ .invalidateAll m
      networks := fun entry hentry => by rw [hshown.workspace, network?_invalidateAll hentry]
      attached := hshown.attached.trans hattached
      due := hshown.due.trans hdue
      polled := hpolled
      monitoring := fun h => hshown.monitoring (h.of_eq hsame.active) }

/-- When memory is zeroed, the networks that were due or for which something is polled are
evaluated, up to the first that cannot be. -/
theorem Tended.refreshed_resetMemory (h : m.Tended) (hreachable : m.Reachable)
    (hrecorded : m.Recorded) (hgiven : m.Gives Command.Discreet) (hmonitoring : m.Monitoring) :
    ∃ zeroed, Marks (fun requester => ∃ r ∈ m.registry, r.Displays requester) m zeroed ∧
      (∀ net, net ∈ zeroed.queue ↔ ∃ requester, (requester, net) ∈ m.display.attached ∧
        (requester ∈ m.display.due ∨ ∃ r ∈ m.registry, r.Displays requester)) ∧
      Refreshed (zeroed.attempted zeroed.queue).reverse { zeroed with display.due := [] }
        (m.resetMemory reactor) := by
  have hcleared : m.Runs m.clear := (LeadsBy.single m .clear rfl : m.Leads m.clear).runs
  have htended : m.clear.Tended :=
    m.tends_move (v := .clear) (by simp) (by simp) (by simp) h
  obtain ⟨hzeroed, hserving⟩ := serving_notifyZeros (hreachable.of_runs hcleared)
    (hrecorded.of_runs hcleared) htended hgiven
  have hmarks : Marks (fun requester => ∃ r ∈ m.registry, r.Displays requester) m
      (m.clear.notifyZeros reactor) := { hzeroed with }
  have hgiven := hgiven.of_eq hmarks.reactions
  have hlisteners := ((hreachable.of_runs hcleared).of_runs hserving.runs).sound.listeners
  have hresetMemory : m.resetMemory reactor = (m.clear.notifyZeros reactor).tellAll reactor := rfl
  rw [hresetMemory]
  generalize m.clear.notifyZeros reactor = zeroed at *
  refine ⟨zeroed, hmarks, fun net => ?_, hserving.tended.attempted_tellAll hlisteners hgiven
    (hmarks.monitoring hmonitoring)⟩
  rw [hserving.tended.mem_queue_iff, hmarks.attached]
  refine exists_congr fun requester => ?_
  rw [and_comm]
  refine and_congr_right fun hentry => ?_
  exact hmarks.due requester (h.ofNetwork hentry)

/-- What a reset does to the displays of networks. -/
structure Renews (m m' : Monitor) : Prop where
  cache : m'.cache = .zeros m.cache.size
  attached : m'.display.attached = m.display.attached
  /-- Networks are polled wherever their symbols lie now, from the first address on. -/
  polled : ∀ entry ∈ m.display.attached, ∀ range, m.workspace.Lie entry.2 range →
    0 ≤ range.start → ∃ r ∈ m'.registry, r.key = ⟨entry.1, range⟩ ∧ r.Displays entry.1
  /-- Networks that are polled, and those that were due, show what a first evaluation shows, unless
  a symbol resolves to an address that is too long to be written out. -/
  fresh : (∀ entry ∈ m.display.attached, m.workspace.Nameable entry.2) →
    ∀ entry ∈ m.display.attached,
      (entry.1 ∈ m.display.due ∨ ∃ r ∈ m'.registry, r.Displays entry.1) →
      ∀ n, m.workspace.network? entry.2 = some n → ∃ shown,
        m'.workspace.network? entry.2 = some shown ∧
        n.invalidate.evaluate m.project m'.cache = (shown, none)
  /-- The other networks have forgotten their resolutions and show what they showed. -/
  left : ∀ entry ∈ m.display.attached, entry.1 ∉ m.display.due →
    (∀ r ∈ m'.registry, ¬ r.Displays entry.1) →
    m'.workspace.network? entry.2 = (m.workspace.network? entry.2).map Network.invalidate

theorem Resolved.renews {resolved : Monitor} (h : Resolved m resolved) (htended : m.Tended)
    (hended : (resolved.resetMemory reactor).Tended)
    (hcache : (resolved.resetMemory reactor).cache = .zeros m.cache.size)
    (hreachable : m.Reachable) (hrecorded : m.Recorded) (hmonitoring : m.Monitoring)
    (hgiven : m.Gives Command.Discreet)
    (hresolves : ∀ entry ∈ m.display.attached, ∀ fault, ¬ m.workspace.Baffles entry.2 fault) :
    Renews m (resolved.resetMemory reactor) := by
  obtain ⟨zeroed, hmarks, hqueue, hrefreshed⟩ :=
    h.tended.refreshed_resetMemory (hreachable.of_runs h.runs) (hrecorded.of_runs h.runs)
      (hgiven.of_eq h.reactions) (h.monitoring hmonitoring)
  generalize resolved.resetMemory reactor = renewed at *
  have hregistered (r : Registration) (hr : r.key.requester.OfNetwork) :
      r ∈ renewed.registry ↔ r ∈ resolved.registry :=
    (hrefreshed.registered r hr).trans (hmarks.registered r hr)
  have hmem (entry : Requester × Nat) (hentry : entry ∈ m.display.attached) :
      entry.2 ∈ zeroed.queue ↔
        entry.1 ∈ m.display.due ∨ ∃ r ∈ renewed.registry, r.Displays entry.1 := by
    rw [hqueue, h.attached, h.due, htended.exists_attached_iff hentry,
      h.tended.exists_displays_iff hended hregistered (htended.ofNetwork hentry)]
  have hnetworks (entry : Requester × Nat) (hentry : entry ∈ m.display.attached) :
      zeroed.workspace.network? entry.2 =
        (m.workspace.network? entry.2).map Network.invalidate := by
    rw [hmarks.workspace, h.networks entry hentry]
  have hproject (n : Network) (memory : Bytes) :
      n.evaluate zeroed.project memory = n.evaluate m.project memory := by
    refine n.evaluate_congr ?_ ?_ memory
    · rw [project, hmarks.workspace]
      exact h.alike.symbols
    · rw [project, hmarks.workspace]
      exact h.alike.offsets
  have hevaluable (hnameable : ∀ entry ∈ m.display.attached, m.workspace.Nameable entry.2)
      (entry : Requester × Nat) (hentry : entry ∈ m.display.attached) :
      zeroed.Evaluable entry.2 := by
    have hcurrent : resolved.workspace.Current entry.2 := by
      intro n hn
      rw [h.networks entry hentry, Option.map_eq_some_iff] at hn
      obtain ⟨old, -, rfl⟩ := hn
      exact old.current_invalidate _
    refine evaluable_of_resolves (fun fault hbaffled => ?_) ?_
    · rw [hmarks.workspace] at hbaffled
      exact hresolves entry hentry fault (h.alike.baffles hbaffled)
    · rw [hmarks.workspace]
      exact (h.alike.nameable (hnameable entry hentry)).placed hcurrent
  refine ⟨hcache, hrefreshed.attached.trans (hmarks.attached.trans h.attached), ?_, ?_, ?_⟩
  · intro entry hentry range hlie hstart
    obtain ⟨stamp, r, hr, hkey, hs⟩ := h.polled entry hentry range hlie hstart
    have hnetwork : r.key.requester.OfNetwork := by
      rw [hkey]
      exact htended.ofNetwork hentry
    exact ⟨r, (hregistered r hnetwork).2 hr, hkey, _, hs, stamp, rfl⟩
  · intro hnameable entry hentry hdue n hn
    have hall : zeroed.attempted zeroed.queue = zeroed.queue := attempted_eq_self fun net hnet => by
      obtain ⟨requester, hattached, -⟩ := (hqueue net).1 hnet
      exact hevaluable hnameable (requester, net) (h.attached ▸ hattached)
    rw [hall] at hrefreshed
    have hbefore : zeroed.workspace.network? entry.2 = some n.invalidate := by
      rw [hnetworks entry hentry, hn, Option.map_some]
    obtain ⟨shown, hshown, heval⟩ := hrefreshed.shows
      (List.mem_reverse.2 ((hmem entry hentry).2 hdue)) (hevaluable hnameable entry hentry) hbefore
    refine ⟨shown, hshown, ?_⟩
    rw [← hproject, hrefreshed.cache]
    exact heval
  · intro entry hentry hnot hnone
    have hout : entry.2 ∉ (zeroed.attempted zeroed.queue).reverse := fun hattempted => by
      have hqueued := (attempted_sublist _ _).subset (List.mem_reverse.1 hattempted)
      obtain hdue | ⟨r, hr, hdisplays⟩ := (hmem entry hentry).1 hqueued
      · exact hnot hdue
      · exact hnone r hr hdisplays
    exact (hrefreshed.network?_of_not_mem hout).trans (hnetworks entry hentry)

/-- After a reset no network that is polled shows anything stale.

While monitoring stays active and the symbols of the attached networks can be resolved, a reset
returns and leaves the memory zero. Whatever has been edited since the networks were attached, each
of them is polled at the ranges where its symbols lie now. If there are any from the first address
on, or if the network was due, it shows what a first evaluation against the zeros shows, unless one
of the networks has a symbol at an address that is too long to be written out. Networks for which
nothing is polled are not evaluated. -/
theorem InService.reset_renews (h : m.InService) (hmonitoring : m.Monitoring)
    (hgiven : m.Gives Command.Discreet)
    (hresolves : ∀ entry ∈ m.display.attached, ∀ fault, ¬ m.workspace.Baffles entry.2 fault) :
    (m.reset reactor).2 = none ∧ Renews m (m.reset reactor).1 := by
  have hreturns : (m.reset reactor).2 = none := by
    rw [Option.eq_none_iff_forall_ne_some]
    intro fault hfault
    rcases reset_fault hfault with ⟨-, hnot⟩ | ⟨entry, hentry, hbaffled⟩
    · exact hnot hmonitoring
    · exact hresolves entry hentry fault hbaffled
  refine ⟨hreturns, ?_⟩
  have hresolved : m.resolveAnew.2 = none := by
    rw [reset_eq] at hreturns
    exact Outcome.snd_eq_none_of_andThen hreturns
  have hreset : (m.reset reactor).1 = m.resolveAnew.1.resetMemory reactor := by
    rw [reset_eq, Outcome.andThen_eq_of_none hresolved]
  have hcache : (m.reset reactor).1.cache = .zeros m.cache.size := by
    rw [cache_reset, if_pos hreturns]
  have hended : (m.reset reactor).1.Tended := (h.turn (.command .reset) trivial).tended
  rw [hreset] at hcache hended ⊢
  exact (resolved_resolveAnew h.reachable h.tended hresolved).renews h.tended hended hcache
    h.reachable h.recorded hmonitoring hgiven hresolves

/-- The panel, attached, before memory is reset and after its inputs have been moved. -/
def shiftedBoard : Monitor :=
  board.turns reactor [.command (.attach 0), .command (.edit (.moveRegion .input 16))]

theorem shiftedBoard_reset_renews :
    (.named "network:panel", 0) ∈ shiftedBoard.display.attached ∧
      shiftedBoard.workspace.Lie 0 ⟨19, 1⟩ ∧ (shiftedBoard.reset reactor).2 = none ∧
      Renews shiftedBoard (shiftedBoard.reset reactor).1 := by
  have hranges : Block.ranges shiftedBoard.project
      (((shiftedBoard.workspace.network? 0).map (·.blocks)).getD []) = .ok [⟨19, 1⟩] := by
    decide +kernel
  have hlies : shiftedBoard.workspace.Lie 0 ⟨19, 1⟩ :=
    (Block.mem_ranges hranges).1 (List.mem_singleton_self _)
  refine ⟨by decide +kernel, hlies, ?_⟩
  have hservice : shiftedBoard.InService := by
    rw [shiftedBoard, board]
    exact .turns (.createDisplay _ _ _) (by simp [Turn.Proper, Command.Proper])
  have hmonitoring : shiftedBoard.Monitoring := monitoring_of_none (by decide +kernel)
  have hgiven : shiftedBoard.Gives Command.Discreet := gives_of_length (by decide +kernel) _
  have hresolved : ∀ entry ∈ shiftedBoard.display.attached,
      ∀ b ∈ ((shiftedBoard.workspace.network? entry.2).map (·.blocks)).getD [],
        (shiftedBoard.project.resolveText b.symbol).isOk := by decide +kernel
  exact InService.reset_renews hservice hmonitoring hgiven fun entry hentry =>
    Block.not_baffle (hresolved entry hentry)

/-- A lamp that is lit as long as its symbol reads zero, after the symbol has been deleted. -/
def strayLamp : Monitor :=
  (createDisplay { cacheSize := 8 } {}
    { project := { Project.empty with
        symbols := [⟨"lamp", .system, .bit, .int 0, .int 0, ""⟩]
        networks := [⟨"panel", "", [⟨"p", 0, 0, .contact, true, .normal, "lamp", none⟩], []⟩] }
    }).turns reactor [.command (.attach 0), .command (.edit (.deleteSymbol "lamp"))]

/-- Nothing is polled for the lamp any more, and so it stays lit over the reset. -/
theorem strayLamp_stays_lit :
    strayLamp.active = none ∧ (strayLamp.project.resolveText "lamp").isOk ∧
      (.named "network:panel", 0) ∈ strayLamp.display.attached ∧
      (strayLamp.reset reactor).2 = none ∧
      (∀ n ∈ strayLamp.workspace.network? 0,
        (n.invalidate.evaluate strayLamp.project (.zeros 8)).2 = none) ∧
      (strayLamp.reset reactor).1.workspace.network? 0 ≠ (strayLamp.workspace.network? 0).map
        fun n => (n.invalidate.evaluate strayLamp.project (.zeros 8)).1 := by
  have hresolved : strayLamp.resolveAnew.2 = none := by decide +kernel
  have hlisteners : (strayLamp.resolveAnew.1.clear.notifyZeros reactor).listeners = [.display] := by
    decide +kernel
  have hsorted : (strayLamp.resolveAnew.1.clear.notifyZeros reactor).display.due.Pairwise
      fun a b => (strayLamp.resolveAnew.1.clear.notifyZeros reactor).textOf a ≤
        (strayLamp.resolveAnew.1.clear.notifyZeros reactor).textOf b := by decide +kernel
  rw [reset_eq, Outcome.andThen_eq_of_none hresolved, resetMemory,
    tellAll_of_sorted hlisteners hsorted]
  decide +kernel

end Monitor

end LadderMonitor
