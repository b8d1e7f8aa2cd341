import LadderMonitor.Proofs.Monitor.Marked
import LadderMonitor.Proofs.Monitor.Reset
import LadderMonitor.Proofs.Monitor.Uninterrupted

namespace LadderMonitor

/-- Whether an entry is polled, at an address that there is. -/
def WatchEntry.Polled (e : WatchEntry) : Prop := ∃ range s, e.Wants range s

theorem WatchEntry.polled_iff {e : WatchEntry} (hupdate : e.update.isSome = e.resolved.isSome) :
    e.Polled ↔ ∃ r, e.resolved = some r ∧ 0 ≤ r.address := by
  constructor
  · rintro ⟨_, _, r, hresolved, -, hstart, -⟩
    exact ⟨r, hresolved, hstart⟩
  · rintro ⟨r, hresolved, hstart⟩
    rw [hresolved, Option.isSome_some, Option.isSome_iff_exists] at hupdate
    obtain ⟨s, hs⟩ := hupdate
    exact ⟨⟨r.address, r.size⟩, s, r, hresolved, hs, hstart, rfl⟩

/-- Whether a name resolves to an address that there is. -/
def Project.Places (p : Project) (name : String) : Prop :=
  ∃ r, p.resolveText name = .ok (some r) ∧ 0 ≤ r.address

namespace Monitor

variable {m m' : Monitor} {requester : Requester} {k : RegistrationKey} {s : Subscriber}
  {e : WatchEntry}

/-- Whether something is registered when the networks of a table have been resolved anew: by anybody
but their markers, or at a place where a symbol of theirs lies now. -/
def Bridged (m : Monitor) (entries : List (Requester × Nat)) : Prop :=
  (∃ k s, m.registry.Holds k s ∧ ∀ entry ∈ entries, k.requester = entry.1 →
    Assoc.get? entry.1 m.display.markers ≠ some s) ∨
  ∃ entry ∈ entries, ∃ range, m.workspace.Lie entry.2 range ∧ 0 ≤ range.start

/-- Networks that have markers are registered where their symbols lie now when they have been
resolved anew one after the other, and otherwise the registrations are as they were. -/
theorem holds_resolved (hreachable : m.Reachable) {entries : List (Requester × Nat)}
    (hnodup : (entries.map (·.1)).Nodup)
    (hmarked : ∀ entry ∈ entries, Assoc.get? entry.1 m.display.markers ≠ none)
    (hreturns : (Outcome.forEach (fun (r, net) => sync r net) entries m).2 = none) :
    (Outcome.forEach (fun (r, net) => sync r net) entries m).1.registry.Holds k s ↔
      (∃ entry ∈ entries, k.requester = entry.1 ∧
        Assoc.get? entry.1 m.display.markers = some s ∧ m.workspace.Lie entry.2 k.range ∧
          0 ≤ k.range.start) ∨
      m.registry.Holds k s ∧ ∀ entry ∈ entries, k.requester = entry.1 →
        Assoc.get? entry.1 m.display.markers ≠ some s := by
  have hkept : ∀ entry ∈ entries, Assoc.get? entry.1
      (Outcome.forEach (fun (r, net) => sync r net) entries m).1.display.markers =
        Assoc.get? entry.1 m.display.markers := by
    intro entry hentry
    obtain ⟨s, hs⟩ := Option.ne_none_iff_exists'.1 (hmarked entry hentry)
    rw [hs, marker_kept_of_forEach_sync entries hs]
  obtain ⟨-, hholds⟩ := holds_forEach_sync hreachable hnodup (Prod.ext rfl hreturns)
  rw [hholds]
  refine or_congr (exists_congr fun entry => and_congr_right fun hentry => ?_)
    (and_congr_right fun _ => forall_congr' fun entry => imp_congr_right fun hentry => ?_)
  · rw [hkept entry hentry]
  · rw [hkept entry hentry]

/-- Something is registered afterwards just if networks are bridged. -/
theorem registry_resolved_iff (hreachable : m.Reachable) {entries : List (Requester × Nat)}
    (hnodup : (entries.map (·.1)).Nodup)
    (hmarked : ∀ entry ∈ entries, Assoc.get? entry.1 m.display.markers ≠ none)
    (hreturns : (Outcome.forEach (fun (r, net) => sync r net) entries m).2 = none) :
    (Outcome.forEach (fun (r, net) => sync r net) entries m).1.registry ≠ [] ↔
      m.Bridged entries := by
  have hreached : (Outcome.forEach (fun (r, net) => sync r net) entries m).1.Reachable :=
    hreachable.of_runs ((lasting_leadsBy _).forEach
      (fun entry _ m => (leads_sync m entry.1 entry.2).runs) m)
  rw [hreached.sound.registry.ne_nil_iff]
  constructor
  · rintro ⟨k, s, hholds⟩
    rcases (holds_resolved hreachable hnodup hmarked hreturns).1 hholds with
      ⟨entry, hentry, -, -, hlie⟩ | hkept
    · exact .inr ⟨entry, hentry, k.range, hlie⟩
    · exact .inl ⟨k, s, hkept⟩
  · rintro (⟨k, s, hkept⟩ | ⟨entry, hentry, range, hlie, hstart⟩)
    · exact ⟨k, s, (holds_resolved hreachable hnodup hmarked hreturns).2 (.inr hkept)⟩
    · obtain ⟨s, hs⟩ := Option.ne_none_iff_exists'.1 (hmarked entry hentry)
      exact ⟨⟨entry.1, range⟩, s, (holds_resolved hreachable hnodup hmarked hreturns).2
        (.inl ⟨entry, hentry, rfl, hs, hlie, hstart⟩)⟩

theorem pollsOnIff_resolveAnew (hservice : m.InService) (hrunning : m.running)
    (hregistered : m.registry ≠ []) (hreturns : m.resolveAnew.2 = none) :
    PollsOnIff m m.resolveAnew.1 (∀ done entry left,
      m.display.attached = done ++ entry :: left → m.Bridged (done ++ [entry])) := by
  obtain ⟨hleads, hsame, hattached, hlie⟩ := m.invalidateAll_spec
  have hpoller : m.invalidateAll.poller = m.poller := by
    obtain ⟨_, heq, -⟩ := m.onlyShown_invalidateAll
    rw [heq]
  have hmarked : m.invalidateAll.Marked :=
    onMarkers_marked.of_eq hattached hsame.markers hservice.marked
  have hnodup : (m.invalidateAll.display.attached.map (·.1)).Nodup := by
    rw [hattached]
    exact hservice.tended.attached
  have hreachable := hservice.reachable.of_runs hleads.runs
  have hbridged (entries : List (Requester × Nat)) :
      m.invalidateAll.Bridged entries ↔ m.Bridged entries := by
    rw [Bridged, Bridged, hsame.registry, hsame.markers, hlie]
  unfold resolveAnew at hreturns ⊢
  rw [← hattached]
  simp only [← hbridged]
  generalize m.invalidateAll = before at *
  have hgoes := pollsOnIff_forEach (fun entry m => (sync entry.1 entry.2 m).1) hreachable
    (by rw [Monitor.running, hpoller]; exact hrunning) (by rwa [hsame.registry])
    (fun (_, _) _ => pollsOn_sync) (fun (r, net) m => (m.leads_sync r net).runs)
    (fun (_, _) _ => .refl _) hreturns
  refine (hgoes.of_poller_eq hpoller).congr ?_
  refine forall_congr' fun done => forall_congr' fun entry => forall_congr' fun left => ?_
  refine imp_congr_right fun hsplit => ?_
  rw [hsplit] at hreturns hnodup
  have hfirst : (done ++ [entry]).Sublist (done ++ entry :: left) := by simp
  obtain ⟨hreturned, heq⟩ := Outcome.forEach_snoc hreturns
  rw [← registry_resolved_iff hreachable (hnodup.sublist (hfirst.map _)) ?_ hreturned, heq]
  intro other hother
  exact hmarked other (hsplit ▸ hfirst.subset hother)

/-- Whether something is registered when an entry of a watch list has its turn after others: by
somebody else, for an entry that has not had its turn, or where one lies now that has had it. A
refresh gives up what an entry has registered before it resolves the entry anew. -/
def Spanned (m : Monitor) (done : List WatchEntry) (e : WatchEntry) : Prop :=
  (∃ r ∈ m.registry, r.key.requester ≠ .watch) ∨
  (∃ x ∈ m.watched, x ∉ done ++ [e] ∧ x.Polled) ∨ ∃ x ∈ done, m.project.Places x.name

theorem overlooksWatching_sparesOthers : OverlooksWatching (SparesOthers .watch) :=
  .of_register overlooks_sparesOthers (fun _ _ _ => rfl) (fun _ => rfl)
    (fun m range _ _ _ => m.sparesOthers_register range _)
    fun m range s => m.sparesOthers_unregister range s

theorem SparesOthers.exists_iff (h : SparesOthers requester m m') :
    (∃ r ∈ m'.registry, r.key.requester ≠ requester) ↔
      ∃ r ∈ m.registry, r.key.requester ≠ requester := by
  have hmem (registry : Registry) : (∃ r ∈ registry, r.key.requester ≠ requester) ↔
      ∃ r, r ∈ Registry.removeAll requester registry := by
    simp [Registry.removeAll]
  rw [hmem, hmem, h]

namespace Watched

/-- Something is registered just if it is by somebody else or for an entry that is polled. -/
theorem registry_ne_nil_iff (h : m.Watched) : m.registry ≠ [] ↔
    (∃ r ∈ m.registry, r.key.requester ≠ .watch) ∨ ∃ x ∈ m.watched, x.Polled := by
  constructor
  · intro hsome
    obtain ⟨k, s, hholds⟩ := h.sound.registry.ne_nil_iff.1 hsome
    obtain ⟨r, range⟩ := k
    by_cases hwatch : r = .watch
    · subst hwatch
      obtain ⟨x, hx, hwants⟩ := (h.registered range s).1 hholds
      exact .inr ⟨x, hx, range, s, hwants⟩
    · obtain ⟨registration, hmem, hkey, -⟩ := hholds
      exact .inl ⟨registration, hmem, by rwa [hkey]⟩
  · rintro (⟨r, hr, -⟩ | ⟨x, hx, range, s, hwants⟩)
    · exact List.ne_nil_of_mem hr
    · exact h.sound.registry.ne_nil_iff.2 ⟨_, s, (h.registered range s).2 ⟨x, hx, hwants⟩⟩

theorem project_restart (m : Monitor) (e : WatchEntry) :
    ((m.stopEntry e).startEntry e).1.project = m.project := by
  rw [project, workspace, (discreetly_restart m e).display, project, workspace]

/-- An entry can be started again just if its name resolves. -/
theorem resolves_of_restart (hreturns : ((m.stopEntry e).startEntry e).2 = none) :
    ∃ resolved, m.project.resolveText e.name = .ok resolved := by
  have hproject : (m.stopEntry e).project = m.project := by
    rw [project, workspace, (overlooksEntries_discreetly.stopEntry m e).display, project, workspace]
  cases hresolve : m.project.resolveText e.name with
  | ok resolved => exact ⟨resolved, rfl⟩
  | error fault =>
    rw [← hproject] at hresolve
    rw [Monitor.startEntry, hresolve] at hreturns
    cases hreturns

/-- Entries that have been started again are polled where their names lie now, and the others as
before. -/
theorem restarted (h : m.Watched) {entries : List WatchEntry}
    (hserials : (entries.map (·.serial)).Nodup) (hmem : ∀ e ∈ entries, e ∈ m.watched)
    (hreturns : (Outcome.forEach (fun e m => (m.stopEntry e).startEntry e) entries m).2 = none) :
    (∀ x, x.serial ∉ entries.map (·.serial) →
      (x ∈ (Outcome.forEach (fun e m => (m.stopEntry e).startEntry e) entries m).1.watched ↔
        x ∈ m.watched)) ∧
    ∀ e ∈ entries,
      (∃ x ∈ (Outcome.forEach (fun e m => (m.stopEntry e).startEntry e) entries m).1.watched,
        x.serial = e.serial ∧ x.Polled) ↔ m.project.Places e.name := by
  induction entries generalizing m with
  | nil => exact ⟨fun _ _ => .rfl, by simp⟩
  | cons e rest ih =>
    obtain ⟨hapart, hrest⟩ := List.nodup_cons.1 hserials
    obtain ⟨hfirst, hothers⟩ := List.forall_mem_cons.1 hmem
    obtain ⟨hreturned, heq⟩ := Outcome.forEach_cons hreturns
    rw [heq] at hreturns ⊢
    obtain ⟨hwatched, hkept, -, hrenewed⟩ := h.restart hfirst
    obtain ⟨resolved, hresolve⟩ := resolves_of_restart hreturned
    obtain ⟨y, hserial, hshown, hpolled, -, hafter⟩ := hrenewed resolved hresolve
    obtain ⟨hsame, hplaced⟩ := ih hwatched hrest (fun x hx => hkept x (hothers x hx) fun heq =>
      hapart (List.mem_map.2 ⟨x, hx, heq⟩)) hreturns
    rw [project_restart] at hplaced
    refine ⟨fun x hx => ?_, List.forall_mem_cons.2 ⟨?_, hplaced⟩⟩
    · rw [List.map_cons, List.mem_cons, not_or] at hx
      rw [hsame x hx.2, hafter, and_iff_left hx.1, or_iff_right]
      rintro rfl
      exact hx.1 hserial
    · have hnow (x : WatchEntry) (hx : x.serial = e.serial) : x ∈
          (Outcome.forEach (fun e m => (m.stopEntry e).startEntry e) rest
            ((m.stopEntry e).startEntry e).1).1.watched ↔ x = y := by
        rw [hsame x (hx ▸ hapart), hafter, or_iff_left fun hold => hold.2 hx]
      have hy : y.Polled ↔ m.project.Places e.name := by
        rw [WatchEntry.polled_iff (by rw [hpolled, hshown]), Project.Places, hresolve, hshown]
        simp
      rw [← hy]
      constructor
      · rintro ⟨x, hx, hsame, hpolled⟩
        rwa [← (hnow x hsame).1 hx]
      · exact fun hpolled => ⟨y, (hnow y hserial).2 rfl, hserial, hpolled⟩

/-- When an entry has its turn, something is registered just if it is spanned. -/
theorem registry_stopped_iff (h : m.Watched) {done : List WatchEntry}
    (hserials : ((done ++ [e]).map (·.serial)).Nodup) (hmem : ∀ x ∈ done ++ [e], x ∈ m.watched)
    (hreturns : (Outcome.forEach (fun e m => (m.stopEntry e).startEntry e) done m).2 = none) :
    ((Outcome.forEach (fun e m => (m.stopEntry e).startEntry e) done m).1.stopEntry e).registry ≠
      [] ↔ m.Spanned done e := by
  rw [List.map_append, List.nodup_append] at hserials
  obtain ⟨hnodup, -, hapart⟩ := hserials
  have hnew : e.serial ∉ done.map (·.serial) := fun hold => hapart _ hold _ (by simp) rfl
  have hdone : ∀ x ∈ done, x ∈ m.watched := fun x hx => hmem x (List.mem_append_left _ hx)
  have he : e ∈ m.watched := hmem e (by simp)
  obtain ⟨hwatched, -⟩ := h.forEach_restart hnodup hdone
  obtain ⟨hsame, hplaced⟩ := h.restarted hnodup hdone hreturns
  have hspares : SparesOthers .watch m
      ((Outcome.forEach (fun e m => (m.stopEntry e).startEntry e) done m).1.stopEntry e) :=
    lasting_sparesOthers.trans (lasting_sparesOthers.forEach (fun e _ m =>
      lasting_sparesOthers.trans (overlooksWatching_sparesOthers.stopEntry m e)
        (overlooksWatching_sparesOthers.startEntry _ e)) m)
      (overlooksWatching_sparesOthers.stopEntry _ e)
  generalize (Outcome.forEach (fun e m => (m.stopEntry e).startEntry e) done m).1 = m' at *
  obtain ⟨hstopped, hafter⟩ := hwatched.stopEntry ((hsame e hnew).2 he)
  rw [hstopped.registry_ne_nil_iff, hspares.exists_iff]
  refine or_congr_right ?_
  have hout (x : WatchEntry) (hx : x ∈ m.watched) :
      x ∉ done ++ [e] ↔ x.serial ∉ done.map (·.serial) ∧ x.serial ≠ e.serial := by
    rw [List.mem_append, List.mem_singleton, not_or]
    refine and_congr (not_congr ⟨List.mem_map_of_mem, fun hserial => ?_⟩)
      (not_congr ⟨fun heq => heq ▸ rfl, h.listed.eq_of_serial hx he⟩)
    obtain ⟨y, hy, heq⟩ := List.mem_map.1 hserial
    rwa [← h.listed.eq_of_serial (hdone y hy) hx heq]
  constructor
  · rintro ⟨x, hx, hpolled⟩
    rcases (hafter x).1 hx with rfl | ⟨hx, hne⟩
    · obtain ⟨_, _, hwants⟩ := hpolled
      exact absurd hwants (WatchEntry.not_wants_of_none rfl)
    · by_cases hturn : x.serial ∈ done.map (·.serial)
      · obtain ⟨y, hy, hserial⟩ := List.mem_map.1 hturn
        exact .inr ⟨y, hy, (hplaced y hy).1 ⟨x, hx, hserial.symm, hpolled⟩⟩
      · have hold := (hsame x hturn).1 hx
        exact .inl ⟨x, hold, (hout x hold).2 ⟨hturn, hne⟩, hpolled⟩
  · rintro (⟨x, hold, hother, hpolled⟩ | ⟨y, hy, hplace⟩)
    · obtain ⟨hturn, hne⟩ := (hout x hold).1 hother
      exact ⟨x, (hafter x).2 (.inr ⟨(hsame x hturn).2 hold, hne⟩), hpolled⟩
    · obtain ⟨x, hx, hserial, hpolled⟩ := (hplaced y hy).2 hplace
      refine ⟨x, (hafter x).2 (.inr ⟨hx, fun heq => hnew ?_⟩), hpolled⟩
      rw [← heq, hserial]
      exact List.mem_map_of_mem hy

end Watched

theorem pollsOnIff_refreshList (hreachable : m.Reachable) (hwatched : m.Watched)
    (hrunning : m.running) (hregistered : m.registry ≠ []) {list : Nat}
    (hreturns : (m.refreshList list).2 = none) :
    PollsOnIff m (m.refreshList list).1 (∀ done e left,
      m.entries list = done ++ e :: left → m.Spanned done e) := by
  have hleads : m.Leads (m.openList list) := overlooksWatching_leads.openList m list
  have hopened := hwatched.openList list
  have hsub : (m.entries list).Sublist (m.openList list).watched := by
    rw [← entries_openList, entries_eq_getElem (m.lt_length_openList list)]
    exact List.sublist_flatten_of_mem (List.getElem_mem _)
  have hspanned (done : List WatchEntry) (e : WatchEntry) :
      (m.openList list).Spanned done e ↔ m.Spanned done e := by
    rw [Spanned, Spanned, watched_openList]
    rfl
  unfold refreshList at hreturns ⊢
  simp only [entries_openList] at hreturns ⊢
  have hgoes := pollsOnIff_forEach stopEntry (hreachable.of_runs hleads.runs)
    (m := m.openList list) hrunning hregistered
    (fun _ _ => pollsOn_restart) (fun e m => (overlooksWatching_leads.stopEntry m e).runs)
    (fun e m => (overlooksWatching_leads.startEntry (m.stopEntry e) e).runs) hreturns
  refine (PollsOnIff.of_poller_eq (m := m) hgoes rfl).congr ?_
  refine forall_congr' fun done => forall_congr' fun e => forall_congr' fun left => ?_
  refine imp_congr_right fun hsplit => ?_
  rw [hsplit] at hsub hreturns
  have hturns : (done ++ [e]).Sublist (m.openList list).watched :=
    List.Sublist.trans (by simp) hsub
  rw [← hspanned]
  exact hopened.registry_stopped_iff (hopened.listed.serials.sublist (hturns.map _))
    (fun x hx => hturns.subset hx) (Outcome.forEach_split hreturns).1

theorem reset_of_returned (hreturns : (m.reset reactor).2 = none) :
    m.resolveAnew.2 = none ∧ (m.reset reactor).1 = m.resolveAnew.1.resetMemory reactor := by
  rw [reset_eq] at hreturns ⊢
  have hresolved := Outcome.snd_eq_none_of_andThen hreturns
  exact ⟨hresolved, by rw [Outcome.andThen_eq_of_none hresolved]⟩

theorem pollsOnIff_reset (hservice : m.InService) (hcalm : m.Gives Command.Calm)
    (hrunning : m.running) (hregistered : m.registry ≠ [])
    (hreturns : (m.reset reactor).2 = none) :
    PollsOnIff m (m.reset reactor).1 (∀ done entry left,
      m.display.attached = done ++ entry :: left → m.Bridged (done ++ [entry])) := by
  obtain ⟨hresolved, heq⟩ := reset_of_returned hreturns
  have hleads : m.Leads m.resolveAnew.1 :=
    overlooksWatching_leads.resolveAnew m fun e _ m => (m.leads_sync e.1 e.2).leads
  have hserved : m.resolveAnew.1.Leads (m.resolveAnew.1.resetMemory reactor) :=
    overlooksWatching_leads.resetMemory _ inner_reactor.within (.single _ .clear rfl)
  rw [heq]
  exact (pollsOnIff_resolveAnew hservice hrunning hregistered hresolved).followed hrunning
    (calmly_resetMemory _ (hcalm.of_eq hleads.runs.reactions)).2 hserved.runs

/-- Whether the task that polls goes on while names are resolved anew.

While a network is attached, for the first time or again, it does if anything is registered in the
end, even when the attachment fails. While all attached networks are resolved anew by a reset, or
the entries of a watch list by a refresh, it goes on exactly if something is registered all the
time: when it is the turn of a network, by somebody else than it and those before, or where it or
one of those lies now; when it is the turn of an entry, by somebody else than watch lists, for an
entry that has not had its turn, or where one lies now that has had it. Otherwise the task is given
up, even if something is registered before and afterwards; a task that polls then is another one. In
case of a reset, those who are told of the memory that is cleared must not stop the task either. -/
theorem polling_goes_on (hservice : m.InService) (hrunning : m.running)
    (hregistered : m.registry ≠ []) :
    (∀ net, (m.attach net).1.registry ≠ [] → (m.attach net).1.poller = m.poller) ∧
    (m.Gives Command.Calm → (m.reset reactor).2 = none →
      PollsOnIff m (m.reset reactor).1 (∀ done entry left,
        m.display.attached = done ++ entry :: left → m.Bridged (done ++ [entry]))) ∧
    (m.Watching → ∀ list, (m.refreshList list).2 = none →
      PollsOnIff m (m.refreshList list).1 (∀ done e left,
        m.entries list = done ++ e :: left → m.Spanned done e)) := by
  refine ⟨fun net hleft => pollsOn_attach hleft hrunning, fun hcalm hreturns => ?_,
    fun hwatching list hreturns => ?_⟩
  · exact pollsOnIff_reset hservice hcalm hrunning hregistered hreturns
  · exact pollsOnIff_refreshList hservice.reachable hwatching.orderly.watched hrunning hregistered
      hreturns

/-- A mill whose gate is shown by a network and whose level is watched, after the gate has been
moved. -/
def mill : Monitor :=
  (createDisplay { cacheSize := 16 } {}
    { project := { Project.empty with
        symbols := [⟨"gate", .system, .bit, .int 0, .int 0, ""⟩,
          ⟨"level", .system, .byte, .int 2, .int 0, ""⟩]
        networks := [⟨"sluice", "", [contact "p" "gate"], []⟩] } }).turns reactor
    [.command (.attach 0), .command (.watch 0 "level"),
      .command (.edit (.changeSymbol "gate" (.address (.int 9))))]

theorem mill_polling_goes_on :
    mill.running ∧ mill.poller.current = some 0 ∧
      mill.registry.map (·.key.range) = [⟨0, 1⟩, ⟨2, 1⟩] ∧
      (mill.attach 0).1.poller = mill.poller ∧ (mill.reset reactor).1.poller = mill.poller ∧
      (mill.refreshList 0).1.poller = mill.poller := by
  have hservice : mill.InService :=
    .turns (.createDisplay _ _ _) (by simp [Turn.Proper, Command.Proper])
  have hwatching : mill.Watching :=
    .turns_offWatch (.opened (untouched_createDisplay _ _ _) rfl (gives_of_length rfl _))
      (by simp [Turn.OffWatch, Command.OffWatch])
  have hcalm : mill.Gives Command.Calm := gives_of_length (by decide +kernel) _
  have hranges : mill.registry.map (·.key.range) = [⟨0, 1⟩, ⟨2, 1⟩] := by decide +kernel
  have hrunning : mill.running := by decide +kernel
  obtain ⟨hattach, hreset, hrefresh⟩ := polling_goes_on hservice hrunning
    (by rintro hnone; rw [hnone] at hranges; cases hranges)
  refine ⟨hrunning, by decide +kernel, hranges, hattach 0 (by decide +kernel), ?_, ?_⟩
  · have hresolved : mill.resolveAnew.2 = none := by decide +kernel
    have hreturns : (mill.reset reactor).2 = none := by
      rw [reset_eq, Outcome.andThen_eq_of_none hresolved]
    refine (hreset hcalm hreturns).kept fun done entry left hsplit => .inl ?_
    have hheld : ∃ r ∈ mill.registry, r.subscribers ≠ [] ∧
        ∀ entry ∈ mill.display.attached, r.key.requester ≠ entry.1 := by decide +kernel
    obtain ⟨r, hr, hsome, hother⟩ := hheld
    obtain ⟨s, hs⟩ := List.exists_mem_of_ne_nil _ hsome
    have hfirst : (done ++ [entry]).Sublist mill.display.attached := by simp [hsplit]
    exact ⟨r.key, s, ⟨r, hr, rfl, hs⟩, fun x hx hsame =>
      absurd hsame (hother x (hfirst.subset hx))⟩
  · refine (hrefresh hwatching 0 (by decide +kernel)).kept fun done e left _ => .inl ?_
    decide +kernel

/-- The level of the tank is all that is watched. -/
def soleGauge : Monitor := tank.turns reactor [.command (.watch 0 "level")]

/-- The inlet has been taken away and the outlet been added, and no network has noticed it yet. -/
def rerouted : Monitor :=
  (createDisplay { cacheSize := 16 } {}
    { project := { Project.empty with
        symbols := [⟨"inlet", .system, .bit, .int 0, .int 0, ""⟩]
        networks := [⟨"north", "", [contact "p" "inlet"], []⟩,
          ⟨"south", "", [contact "q" "outlet"], []⟩] } }).turns reactor
    [.command (.attach 0), .command (.attach 1), .command (.edit (.deleteSymbol "inlet")),
      .command (.edit (.addSymbol ⟨"outlet", .system, .bit, .int 4, .int 0, ""⟩))]

/-- A watch list of one entry that is resolved anew, and two networks that are reset, have another
task poll for them in the end. -/
theorem polling_interrupted :
    (soleGauge.InService ∧ soleGauge.Watching ∧ soleGauge.active = none ∧ soleGauge.running ∧
        soleGauge.poller.current = some 0 ∧ (soleGauge.refreshList 0).2 = none ∧
        soleGauge.registry.map (·.key.range) = [⟨2, 1⟩] ∧
        (soleGauge.refreshList 0).1.registry.map (·.key.range) = [⟨2, 1⟩] ∧
        (soleGauge.refreshList 0).1.poller.current = some 1) ∧
      (rerouted.InService ∧ rerouted.active = none ∧ rerouted.running ∧
        rerouted.poller.current = some 0 ∧ (rerouted.reset reactor).2 = none ∧
        rerouted.registry.map (·.key.range) = [⟨0, 1⟩] ∧
        (rerouted.reset reactor).1.registry.map (·.key.range) = [⟨4, 1⟩] ∧
        (rerouted.reset reactor).1.poller.current = some 1) := by
  have hgauge : soleGauge.InService :=
    .turns (.createDisplay _ _ _) (by simp [Turn.Proper, Command.Proper])
  have hwatching : soleGauge.Watching :=
    .turns_offWatch (.opened (untouched_createDisplay _ _ _) rfl (gives_of_length rfl _))
      (by simp [Turn.OffWatch, Command.OffWatch])
  have hrerouted : rerouted.InService :=
    .turns (.createDisplay _ _ _) (by simp [Turn.Proper, Command.Proper])
  have hresolved : rerouted.resolveAnew.2 = none := by decide +kernel
  have hlisteners : (rerouted.resolveAnew.1.clear.notifyZeros reactor).listeners = [.display] := by
    decide +kernel
  have hsorted : (rerouted.resolveAnew.1.clear.notifyZeros reactor).display.due.Pairwise
      fun a b => (rerouted.resolveAnew.1.clear.notifyZeros reactor).textOf a ≤
        (rerouted.resolveAnew.1.clear.notifyZeros reactor).textOf b := by decide +kernel
  rw [reset_eq, Outcome.andThen_eq_of_none hresolved, resetMemory,
    tellAll_of_sorted hlisteners hsorted]
  refine ⟨⟨hgauge, hwatching, ?_, ?_, ?_, ?_, ?_, ?_, ?_⟩, hrerouted, ?_, ?_, ?_, ?_, ?_, ?_, ?_⟩
  all_goals decide +kernel

end Monitor

end LadderMonitor
