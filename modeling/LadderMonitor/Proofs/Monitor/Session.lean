import LadderMonitor.Proofs.Monitor.Sync
import Mathlib.Logic.Function.Basic

namespace LadderMonitor.Monitor

/-- A network, and where its symbols lay when they were resolved. -/
structure Sighting where
  net : Nat
  ranges : ByteRange → Prop

/-- The states that a monitor gets into while networks are attached and detached, memory is reset
and anything else happens that is not done in the name of a network, together with what was seen of
the network attached under each requester at the latest attachment or reset.

Attachments and resets return. They fail only if a symbol cannot be resolved or the active predicate
fails. -/
inductive Session : Monitor → (Requester → Option Sighting) → Prop where
  | opened {m : Monitor} (hfresh : m.Fresh) (hattached : m.display.attached = [])
      (hmarkers : m.display.markers = []) (hforeign : m.Foreign) : Session m fun _ => none
  | attach {m : Monitor} {sightings : Requester → Option Sighting} (h : Session m sightings)
      (net : Nat) (hreturns : (m.act (.command (.attach net))).2 = none) :
      Session (m.act (.command (.attach net))).1
        (Function.update sightings (m.requesterOf net) (some ⟨net, m.workspace.Lie net⟩))
  | detach {m : Monitor} {sightings : Requester → Option Sighting} (h : Session m sightings)
      (net : Nat) :
      Session (m.act (.command (.detach net))).1
        (Function.update sightings (m.requesterOf net) none)
  | reset {m : Monitor} {sightings : Requester → Option Sighting} (h : Session m sightings)
      (hreturns : (m.act (.command .reset)).2 = none) :
      Session (m.act (.command .reset)).1
        fun r => (sightings r).map fun sighting => ⟨sighting.net, m.workspace.Lie sighting.net⟩
  | other {m : Monitor} {sightings : Requester → Option Sighting} (h : Session m sightings)
      (action : Action) (hforeign : action.Foreign) : Session (m.act action).1 sightings

variable {m m' : Monitor} {sightings sightings' : Requester → Option Sighting}

theorem Session.reachable (h : Session m sightings) : m.Reachable := by
  induction h with
  | opened hfresh => exact .fresh hfresh
  | attach _ _ _ ih => exact ih.act _
  | detach _ _ ih => exact ih.act _
  | reset _ _ ih => exact ih.act _
  | other _ action _ ih => exact ih.act action

/-- The attached networks are those that have been seen, each is polled where it was seen, and
nothing else is registered in the name of a network. -/
structure Follows (m : Monitor) (sightings : Requester → Option Sighting) : Prop where
  foreign : m.Foreign
  nodup : (m.display.attached.map (·.1)).Nodup
  attached : ∀ r, Assoc.get? r m.display.attached = (sightings r).map (·.net)
  ofNetwork : ∀ r sighting, sightings r = some sighting → r.OfNetwork
  polls : ∀ r sighting, sightings r = some sighting → m.Polls r sighting.ranges
  rest : ∀ r, r.OfNetwork → sightings r = none →
    ∀ range s, ¬ m.registry.Holds ⟨r, range⟩ s

/-- The same is registered, for the same markers and by the same people outside, and the same
predicate tells whether monitoring is active. -/
structure SameRegistrations (m m' : Monitor) : Prop where
  active : m'.active = m.active
  reactions : m'.reactions = m.reactions
  registry : m'.registry = m.registry
  markers : m'.display.markers = m.display.markers

theorem SameRegistrations.onlyMarker (h : SameRegistrations m m') {r : Requester}
    (hmarker : m.OnlyMarker r) : m'.OnlyMarker r :=
  hmarker.of_eq (by rw [h.markers]) fun range s => by rw [h.registry]

namespace Follows

theorem of_same (h : m.Follows sightings) (hsame : SameNetworks m m') : m'.Follows sightings where
  foreign := hsame.foreign h.foreign
  nodup := by rw [hsame.attached]; exact h.nodup
  attached := by rw [hsame.attached]; exact h.attached
  ofNetwork := h.ofNetwork
  polls := by
    intro r sighting hr
    refine (h.polls r sighting hr).of_eq (by rw [hsame.markers]) fun range s => ?_
    exact hsame.holds (h.ofNetwork r sighting hr)
  rest := by
    intro r hnetwork hr range s hholds
    exact h.rest r hnetwork hr range s ((hsame.holds hnetwork).1 hholds)

theorem onlyMarker (h : m.Follows sightings) {r : Requester} (hnetwork : r.OfNetwork) :
    m.OnlyMarker r := by
  cases hr : sightings r with
  | none => exact fun range s hholds => absurd hholds (h.rest r hnetwork hr range s)
  | some sighting => exact (h.polls r sighting hr).onlyMarker

theorem seen (h : m.Follows sightings) {r : Requester} {net : Nat}
    (hmem : (r, net) ∈ m.display.attached) :
    r.OfNetwork ∧ ∃ ranges, sightings r = some ⟨net, ranges⟩ := by
  have hget := h.attached r
  rw [(Assoc.get?_eq_some_iff h.nodup).2 hmem] at hget
  obtain ⟨⟨_, ranges⟩, hr, rfl⟩ := Option.map_eq_some_iff.1 hget.symm
  exact ⟨h.ofNetwork r _ hr, ranges, hr⟩

theorem unseen (h : m.Follows sightings) {r : Requester}
    (hnone : Assoc.get? r m.display.attached = none) : sightings r = none := by
  rwa [h.attached, Option.map_eq_none_iff] at hnone

/-- Networks that are resolved anew are followed at what is seen of them, and the others as before.
-/
theorem of_synced (h : m.Follows sightings) {before : Monitor} (hsame : SameRegistrations m before)
    {entries : List (Requester × Nat)} (hsynced : Synced entries before m')
    (hnodup : (before.display.attached.map (·.1)).Nodup)
    (hattached : ∀ r, Assoc.get? r before.display.attached = (sightings' r).map (·.net))
    (hsighted : ∀ r ∈ entries.map (·.1), r.OfNetwork ∧ ∃ net, (r, net) ∈ entries ∧
      sightings' r = some ⟨net, before.workspace.Lie net⟩)
    (hothers : ∀ r, r ∉ entries.map (·.1) → sightings' r = sightings r) :
    m'.Follows sightings' where
  foreign := by
    unfold Foreign
    rw [hsynced.reactions, hsame.reactions]
    exact h.foreign
  nodup := by rw [hsynced.attached]; exact hnodup
  attached := by rw [hsynced.attached]; exact hattached
  ofNetwork := by
    intro r sighting hr
    by_cases hentry : r ∈ entries.map (·.1)
    · exact (hsighted r hentry).1
    · exact h.ofNetwork r sighting (hothers r hentry ▸ hr)
  polls := by
    intro r sighting hr
    by_cases hentry : r ∈ entries.map (·.1)
    · obtain ⟨-, net, hmem, hseen⟩ := hsighted r hentry
      obtain rfl := Option.some.inj (hseen.symm.trans hr)
      exact hsynced.polls _ hmem
    · have hpolled := h.polls r sighting (hothers r hentry ▸ hr)
      refine hpolled.of_eq (by rw [hsynced.markers r hentry, hsame.markers]) fun range s => ?_
      rw [hsynced.holds ⟨r, range⟩ s hentry, hsame.registry]
  rest := by
    intro r hnetwork hr range s
    have hentry : r ∉ entries.map (·.1) := by
      intro hmem
      obtain ⟨-, net, -, hseen⟩ := hsighted r hmem
      cases hseen.symm.trans hr
    rw [hsynced.holds ⟨r, range⟩ s hentry, hsame.registry]
    exact h.rest r hnetwork (hothers r hentry ▸ hr) range s

end Follows

/-- Only what networks show differs. -/
def OnlyShown (m m' : Monitor) : Prop :=
  ∃ workspace, m' = { m with display.workspace := workspace } ∧
    workspace.Lie = m.workspace.Lie ∧ workspace.project.symbols = m.project.symbols ∧
    workspace.project.offsets = m.project.offsets

theorem lasting_onlyShown : Lasting OnlyShown where
  refl := fun m => ⟨m.workspace, rfl, rfl, rfl, rfl⟩
  trans := by
    rintro m _ _ ⟨workspace, rfl, hlie, hsymbols, hoffsets⟩
      ⟨workspace', rfl, hlie', hsymbols', hoffsets'⟩
    exact ⟨workspace', rfl, hlie'.trans hlie, hsymbols'.trans hsymbols, hoffsets'.trans hoffsets⟩

theorem onlyShown_invalidate (m : Monitor) (net : Nat) : OnlyShown m (m.invalidate net) :=
  ⟨_, rfl, funext fun _ => Workspace.lie_invalidate, m.workspace.layout_modify net _⟩

theorem onlyShown_invalidateAll (m : Monitor) : OnlyShown m m.invalidateAll :=
  lasting_onlyShown.foldl onlyShown_invalidate _ m

theorem invalidateAll_spec (m : Monitor) :
    m.Leads m.invalidateAll ∧ SameRegistrations m m.invalidateAll ∧
      m.invalidateAll.display.attached = m.display.attached ∧
      m.invalidateAll.workspace.Lie = m.workspace.Lie := by
  have hleads : m.Leads m.invalidateAll := (lasting_leadsBy _).foldl
    overlooksWatching_leads.invalidate _ m
  refine ⟨hleads, ?_⟩
  obtain ⟨workspace, heq, hlie, -⟩ := m.onlyShown_invalidateAll
  rw [heq]
  exact ⟨⟨rfl, rfl, rfl, rfl⟩, rfl, hlie⟩

theorem ofNetwork_requesterOf (m : Monitor) (net : Nat) : (m.requesterOf net).OfNetwork :=
  ⟨net, _, rfl⟩

/-- Before an attached network is resolved, it is entered, and nothing is registered. -/
theorem attach_spec (m : Monitor) (net : Nat) :
    ∃ before, m.attach net = (before.sync (m.requesterOf net) net).andThen (evaluate net) ∧
      m.Leads before ∧ SameRegistrations m before ∧
      before.display.attached = Assoc.set (m.requesterOf net) net m.display.attached ∧
      before.workspace = m.workspace.modify net Network.invalidate :=
  ⟨{ m.invalidate net with
      display.attached := Assoc.set (m.requesterOf net) net (m.invalidate net).display.attached },
    rfl, (overlooksWatching_leads.invalidate m net).trans
      (leads_display _ _).leads, ⟨rfl, rfl, rfl, rfl⟩, rfl, rfl⟩

theorem Follows.attach (h : m.Follows sightings) (hreachable : m.Reachable) {net : Nat}
    (hreturns : (m.attach net).2 = none) :
    (m.attach net).1.Follows
      (Function.update sightings (m.requesterOf net) (some ⟨net, m.workspace.Lie net⟩)) := by
  have hnetwork := m.ofNetwork_requesterOf net
  have hmarker := h.onlyMarker hnetwork
  obtain ⟨before, heq, hleads, hsame, hattached, hworkspace⟩ := m.attach_spec net
  have hlie : before.workspace.Lie net = m.workspace.Lie net := by
    rw [hworkspace, Workspace.lie_invalidate]
  generalize m.requesterOf net = requester at *
  rw [heq] at hreturns ⊢
  have hreturned := Outcome.snd_eq_none_of_andThen hreturns
  have hsynced : Synced [(requester, net)] before (before.sync requester net).1 :=
    synced_sync (hreachable.of_runs hleads.runs) (hsame.onlyMarker hmarker) hreturned
  have hfollows : (before.sync requester net).1.Follows
      (Function.update sightings requester (some ⟨net, m.workspace.Lie net⟩)) := by
    refine h.of_synced hsame hsynced ?_ ?_ ?_ ?_
    · rw [hattached]
      exact Assoc.nodup_keys_set h.nodup
    · intro r
      rw [hattached, Assoc.get?_set, Function.update_apply, h.attached]
      split <;> rfl
    · intro r hr
      obtain rfl := List.mem_singleton.1 hr
      exact ⟨hnetwork, net, by simp, by rw [Function.update_self, hlie]⟩
    · intro r hr
      exact Function.update_of_ne (by simpa using hr) _ _
  rw [Outcome.andThen_eq_of_none hreturned]
  have hevaluated := overlooksWatching_sparesNetworks.evaluate (before.sync requester net).1 net
  exact hfollows.of_same (hevaluated hfollows.foreign)

/-- A detached network is forgotten; if it was attached, so are all registrations in its name. -/
theorem detach_spec (m : Monitor) (net : Nat) :
    (m.detach net).reactions = m.reactions ∧
      (m.detach net).display.attached = Assoc.erase (m.requesterOf net) m.display.attached ∧
      (m.detach net).display.markers = Assoc.erase (m.requesterOf net) m.display.markers ∧
      ∀ k s, (m.detach net).registry.Holds k s ↔ m.registry.Holds k s ∧
        (Assoc.get? (m.requesterOf net) m.display.attached = none ∨
          k.requester ≠ m.requesterOf net) := by
  unfold detach
  simp only
  split
  · rename_i other hattached
    obtain ⟨_, heq⟩ := unregisterAll_eq { m with
      display.markers := Assoc.erase (m.requesterOf net) m.display.markers
      display.due := m.display.due.filter (· ≠ m.requesterOf net)
      display.attached := Assoc.erase (m.requesterOf net) m.display.attached } (m.requesterOf net)
    rw [heq]
    refine ⟨rfl, rfl, rfl, fun k s => ?_⟩
    rw [Registry.holds_removeAll, hattached]
    simp
  · rename_i hattached
    exact ⟨rfl, rfl, rfl, fun k s => by simp [hattached]⟩

theorem Follows.detach (h : m.Follows sightings) (net : Nat) :
    (m.detach net).Follows (Function.update sightings (m.requesterOf net) none) := by
  obtain ⟨hreactions, hattached, hmarkers, hholds⟩ := m.detach_spec net
  generalize m.requesterOf net = requester at *
  have hkept (r : Requester) (hne : r ≠ requester) (range : ByteRange) (s : Subscriber) :
      (m.detach net).registry.Holds ⟨r, range⟩ s ↔ m.registry.Holds ⟨r, range⟩ s := by
    simp [hholds, hne]
  have hseen (r : Requester) (sighting : Sighting)
      (hr : Function.update sightings requester none r = some sighting) :
      r ≠ requester ∧ sightings r = some sighting := by
    rw [Function.update_apply] at hr
    split at hr
    · cases hr
    · rename_i hne
      exact ⟨hne, hr⟩
  refine ⟨?_, ?_, ?_, ?_, ?_, ?_⟩
  · unfold Foreign
    rw [hreactions]
    exact h.foreign
  · rw [hattached]
    exact Assoc.nodup_keys_erase h.nodup
  · intro r
    rw [hattached, Assoc.get?_erase, Function.update_apply, h.attached]
    split <;> rfl
  · exact fun r sighting hr => h.ofNetwork r sighting (hseen r sighting hr).2
  · intro r sighting hr
    obtain ⟨hne, hr⟩ := hseen r sighting hr
    refine (h.polls r sighting hr).of_eq ?_ (hkept r hne)
    rw [hmarkers, Assoc.get?_erase, if_neg hne]
  · intro r hnetwork hr range s hheld
    by_cases hsame : r = requester
    · subst hsame
      obtain ⟨hheld, hnone | hne⟩ := (hholds _ s).1 hheld
      · exact h.rest r hnetwork (h.unseen hnone) range s hheld
      · exact hne rfl
    · rw [Function.update_of_ne hsame] at hr
      exact h.rest r hnetwork hr range s ((hkept r hsame range s).1 hheld)

theorem Follows.reset (h : m.Follows sightings) (hreachable : m.Reachable)
    (hreturns : (m.reset reactor).2 = none) :
    (m.reset reactor).1.Follows fun r =>
      (sightings r).map fun sighting => ⟨sighting.net, m.workspace.Lie sighting.net⟩ := by
  obtain ⟨hleads, hsame, hattached, hlie⟩ := m.invalidateAll_spec
  unfold Monitor.reset at hreturns ⊢
  simp only at hreturns ⊢
  generalize m.invalidateAll = before at *
  have hreturned := Outcome.snd_eq_none_of_andThen hreturns
  have hnodup : (before.display.attached.map (·.1)).Nodup := by
    rw [hattached]
    exact h.nodup
  have honly : ∀ entry ∈ before.display.attached, before.OnlyMarker entry.1 := by
    intro entry hentry
    rw [hattached] at hentry
    exact hsame.onlyMarker (h.onlyMarker (h.seen hentry).1)
  have hsynced :=
    synced_forEach_sync (hreachable.of_runs hleads.runs) hnodup honly hreturned
  rw [Outcome.andThen_eq_of_none hreturned]
  generalize (Outcome.forEach _ before.display.attached before).1 = synced at hsynced ⊢
  have hfollows : synced.Follows fun r =>
      (sightings r).map fun sighting => ⟨sighting.net, m.workspace.Lie sighting.net⟩ := by
    refine h.of_synced hsame hsynced hnodup ?_ ?_ ?_
    · intro r
      rw [hattached, h.attached, Option.map_map]
      rfl
    · intro r hr
      obtain ⟨⟨_, net⟩, hmem, rfl⟩ := List.mem_map.1 hr
      obtain ⟨hnetwork, ranges, hseen⟩ := h.seen (hattached ▸ hmem)
      exact ⟨hnetwork, net, hmem, by rw [hseen, hlie]; rfl⟩
    · intro r hr
      rw [hattached] at hr
      rw [h.unseen (Assoc.get?_eq_none_iff.2 hr), Option.map_none]
  have hserved := overlooksWatching_sparesNetworks.resetMemory synced
    within_reactor_sparesNetworks fun _ => .of_eq rfl rfl rfl rfl
  exact hfollows.of_same (hserved hfollows.foreign)

/-- Whatever happens in a session, the registrations follow the networks. -/
theorem Session.follows (h : Session m sightings) : m.Follows sightings := by
  have hsettled (m : Monitor) : SameNetworks m m.settle := .of_eq rfl rfl rfl rfl
  induction h with
  | opened hfresh hattached hmarkers hforeign =>
    refine ⟨hforeign, by simp [hattached], by simp [hattached, Assoc.get?], by simp, by simp, ?_⟩
    intro r _ _ range s
    rw [hfresh.registry]
    exact Registry.not_holds_nil
  | attach h net hreturns ih => exact (ih.attach h.reachable hreturns).of_same (hsettled _)
  | detach h net ih => exact (ih.detach net).of_same (hsettled _)
  | reset h hreturns ih => exact (ih.reset h.reachable hreturns).of_same (hsettled _)
  | other h action hforeign ih => exact ih.of_same (sparesNetworks_act _ hforeign ih.foreign)

/-- What is registered in the name of a network are exactly the ranges, from the first address on,
at which the symbols of the network attached under that name lay at the latest attachment or reset;
each is registered once, for the one marker of that name. In the name of a network that is not
attached nothing is registered. -/
theorem Session.registrations_follow (h : Session m sightings) {requester : Requester}
    (hnetwork : requester.OfNetwork) :
    Assoc.get? requester m.display.attached = (sightings requester).map (·.net) ∧
      (sightings requester = none → Registry.ofRequester requester m.registry = []) ∧
      ∀ sighting, sightings requester = some sighting → ∃ marker,
        Assoc.get? requester m.display.markers = some marker ∧ m.registry.Serves requester
          (fun range => sighting.ranges range ∧ 0 ≤ range.start) marker := by
  have hfollows := h.follows
  have hsound := h.reachable.sound.registry
  refine ⟨hfollows.attached requester, fun hunseen => ?_, fun sighting hseen => ?_⟩
  · exact hsound.ofRequester_eq_nil (hfollows.rest requester hnetwork hunseen)
  · obtain ⟨marker, hmarker, hholds⟩ := hfollows.polls requester sighting hseen
    exact ⟨marker, hmarker, hsound.serves hholds⟩

/-- A panel with a contact at an input, on display. -/
def board : Monitor :=
  createDisplay { cacheSize := 8 } { memory := .zeros 80 } { project := { Project.empty with
    networks := [⟨"panel", "", [⟨"a", 0, 0, .contact, false, .normal, "X3.1", none⟩], []⟩] } }

/-- The panel, attached and polled, after the inputs have been moved and memory was reset. -/
def movedBoard : Monitor :=
  let attached := (board.act (.command (.attach 0))).1
  let edited := (attached.act (.command (.edit (.moveRegion .input 16)))).1
  ((edited.act .tick).1.act (.command .reset)).1

theorem movedBoard_registrations_follow :
    ∃ sightings, Session movedBoard sightings ∧ (Requester.named "network:panel").OfNetwork ∧
      (∃ sighting marker, sightings (.named "network:panel") = some sighting ∧
        movedBoard.registry.Serves (.named "network:panel")
          (fun range => sighting.ranges range ∧ 0 ≤ range.start) marker) ∧
      (Registry.ofRequester (.named "network:panel") movedBoard.registry).map (·.key.range) =
        [⟨19, 1⟩] := by
  have hopened : Session board fun _ => none :=
    .opened (fresh_createDisplay _ _ _) rfl rfl (fun _ hentry => by cases hentry)
  have hattached := hopened.attach 0 (by decide +kernel)
  have hedited := hattached.other (.command (.edit (.moveRegion .input 16))) trivial
  obtain ⟨sightings, hreset⟩ : ∃ sightings, Session movedBoard sightings :=
    ⟨_, (hedited.other .tick trivial).reset (by decide +kernel)⟩
  have hnetwork : (Requester.named "network:panel").OfNetwork := ⟨0, "panel", by decide +kernel⟩
  obtain ⟨hnet, -, hserves⟩ := Session.registrations_follow hreset hnetwork
  have hsome : Assoc.get? (.named "network:panel") movedBoard.display.attached = some 0 := by
    decide +kernel
  obtain ⟨sighting, hseen, -⟩ := Option.map_eq_some_iff.1 (hnet.symm.trans hsome)
  obtain ⟨marker, -, hserved⟩ := hserves sighting hseen
  exact ⟨sightings, hreset, hnetwork, ⟨sighting, marker, hseen, hserved⟩, by decide +kernel⟩

end LadderMonitor.Monitor
