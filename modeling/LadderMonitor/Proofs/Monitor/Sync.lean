import LadderMonitor.Proofs.Monitor.Foreign
import LadderMonitor.Proofs.Monitor.Monitoring
import LadderMonitor.Proofs.Monitor.Ranges
import LadderMonitor.Proofs.Monitor.Sound
import LadderMonitor.Proofs.Table

namespace LadderMonitor

namespace Outcome

variable {α : Type} {o : Outcome} {next : Monitor → Outcome}

theorem andThen_eq_of_none (h : o.2 = none) : o.andThen next = next o.1 := by
  obtain ⟨m, fault⟩ := o
  obtain rfl : fault = none := h
  rfl

theorem snd_eq_none_of_andThen (h : (o.andThen next).2 = none) : o.2 = none := by
  obtain ⟨m, fault⟩ := o
  cases fault with
  | none => rfl
  | some fault => exact h

theorem forEach_cons {act : α → Monitor → Outcome} {a : α} {rest : List α} {m : Monitor}
    (h : (forEach act (a :: rest) m).2 = none) :
    (act a m).2 = none ∧ forEach act (a :: rest) m = forEach act rest (act a m).1 := by
  have hfirst : (act a m).2 = none := snd_eq_none_of_andThen h
  exact ⟨hfirst, andThen_eq_of_none hfirst⟩

end Outcome

namespace Monitor

variable {m m' m'' : Monitor} {requester : Requester} {s s' : Subscriber} {k : RegistrationKey}
  {net : Nat}

/-- What is registered for a requester are certain ranges, as far as they can be polled, and the
only subscriber of each is the marker of the requester. -/
def Polls (m : Monitor) (requester : Requester) (ranges : ByteRange → Prop) : Prop :=
  ∃ s, Assoc.get? requester m.display.markers = some s ∧ ∀ range s',
    m.registry.Holds ⟨requester, range⟩ s' ↔ s' = s ∧ ranges range ∧ 0 ≤ range.start

theorem Polls.of_eq {ranges : ByteRange → Prop} (h : m.Polls requester ranges)
    (hmarker : Assoc.get? requester m'.display.markers = Assoc.get? requester m.display.markers)
    (hholds : ∀ range s,
      m'.registry.Holds ⟨requester, range⟩ s ↔ m.registry.Holds ⟨requester, range⟩ s) :
    m'.Polls requester ranges := by
  obtain ⟨s, hs, hranges⟩ := h
  exact ⟨s, hmarker.trans hs, fun range s' => (hholds range s').trans (hranges range s')⟩

/-- Whether nobody but the marker of a requester is registered for it. -/
def OnlyMarker (m : Monitor) (requester : Requester) : Prop :=
  ∀ range s, m.registry.Holds ⟨requester, range⟩ s →
    Assoc.get? requester m.display.markers = some s

theorem OnlyMarker.of_eq (h : m.OnlyMarker requester)
    (hmarker : Assoc.get? requester m'.display.markers = Assoc.get? requester m.display.markers)
    (hholds : ∀ range s,
      m'.registry.Holds ⟨requester, range⟩ s ↔ m.registry.Holds ⟨requester, range⟩ s) :
    m'.OnlyMarker requester := by
  intro range s hheld
  rw [hmarker]
  exact h range s ((hholds range s).1 hheld)

theorem Polls.onlyMarker {ranges : ByteRange → Prop} (h : m.Polls requester ranges) :
    m.OnlyMarker requester := by
  obtain ⟨s, hs, hranges⟩ := h
  intro range s' hholds
  rw [((hranges range s').1 hholds).1, hs]

/-- The display and those outside are as they were, and monitoring stays active if it was. -/
structure SameDisplay (m m' : Monitor) : Prop where
  reactions : m'.reactions = m.reactions
  display : m'.display = m.display
  monitoring : m.Monitoring → m'.Monitoring

theorem lasting_sameDisplay : Lasting SameDisplay where
  refl := fun _ => ⟨rfl, rfl, id⟩
  trans := fun h h' => ⟨h'.reactions.trans h.reactions, h'.display.trans h.display,
    h'.monitoring ∘ h.monitoring⟩

theorem sameDisplay_register (m : Monitor) (key : RegistrationKey) (s : Subscriber) :
    SameDisplay m (m.register key s).1 := by
  have hmonitoring (h : m.Monitoring) := (h.register key s).2
  obtain ⟨_, _, _, _, -, heq⟩ := m.register_eq key s
  rw [heq] at hmonitoring ⊢
  exact ⟨rfl, rfl, hmonitoring⟩

theorem sameDisplay_unregister (m : Monitor) (key : RegistrationKey) (s : Subscriber) :
    SameDisplay m (m.unregister key s) := by
  obtain ⟨_, heq⟩ := m.unregister_eq key s
  rw [heq]
  exact ⟨rfl, rfl, id⟩

theorem sameDisplay_registerAll (m : Monitor) (requester : Requester) (s : Subscriber)
    (ranges : List ByteRange) : SameDisplay m (m.registerAll requester s ranges).1 :=
  lasting_sameDisplay.forEach (fun range _ m => m.sameDisplay_register ⟨requester, range⟩ s) m

theorem sameDisplay_dropOthers (m : Monitor) (requester : Requester) (s : Subscriber)
    (wanted : List ByteRange) : SameDisplay m (m.dropOthers requester s wanted) := by
  refine lasting_sameDisplay.foldl (fun m r => ?_) _ m
  split
  · exact lasting_sameDisplay.refl m
  · exact m.sameDisplay_unregister ⟨requester, r.range⟩ s

theorem holds_registerAll {ranges : List ByteRange}
    (hreturns : (m.registerAll requester s ranges).2 = none) :
    (m.registerAll requester s ranges).1.registry.Holds k s' ↔
      (k.requester = requester ∧ s' = s ∧ k.range ∈ ranges ∧ 0 ≤ k.range.start ∧
        0 < k.range.size) ∨ m.registry.Holds k s' := by
  unfold registerAll at hreturns ⊢
  induction ranges generalizing m with
  | nil => simp [Outcome.forEach]
  | cons range rest ih =>
    obtain ⟨-, heq⟩ := Outcome.forEach_cons hreturns
    rw [heq] at hreturns ⊢
    rw [ih hreturns, holds_register]
    obtain ⟨r, other⟩ := k
    simp only [RegistrationKey.mk.injEq, List.mem_cons]
    constructor
    · rintro (⟨hr, hs, hmem, hrange⟩ | ⟨⟨hr, hother⟩, hs, hstart, hsize⟩ | hholds)
      · exact .inl ⟨hr, hs, .inr hmem, hrange⟩
      · rw [hother]
        exact .inl ⟨hr, hs, .inl rfl, hstart, hsize⟩
      · exact .inr hholds
    · rintro (⟨hr, hs, hother | hmem, hstart, hsize⟩ | hholds)
      · rw [hother] at hstart hsize
        exact .inr (.inl ⟨⟨hr, hother⟩, hs, hstart, hsize⟩)
      · exact .inl ⟨hr, hs, hmem, hstart, hsize⟩
      · exact .inr (.inr hholds)

/-- What a subscriber is taken out of, one registration after the other. -/
theorem holds_foldl_unregister (hsound : m.registry.Sound) (wanted : List ByteRange)
    (registrations : List Registration) :
    (registrations.foldl
        (fun m r => if r.key.range ∈ wanted then m else m.unregister r.key s)
        m).registry.Holds k s' ↔ m.registry.Holds k s' ∧
        ¬ (s' = s ∧ k.range ∉ wanted ∧ ∃ r ∈ registrations, r.key = k) := by
  induction registrations generalizing m with
  | nil => simp
  | cons r rest ih =>
    rw [List.foldl_cons]
    split
    · rename_i hmem
      rw [ih hsound]
      have hkept (hout : k.range ∉ wanted) : r.key ≠ k := fun heq => hout (heq ▸ hmem)
      simp only [List.mem_cons, exists_eq_or_imp]
      constructor
      · rintro ⟨hholds, hleft⟩
        refine ⟨hholds, ?_⟩
        rintro ⟨hs, hout, hkey | hlater⟩
        · exact hkept hout hkey
        · exact hleft ⟨hs, hout, hlater⟩
      · rintro ⟨hholds, hleft⟩
        exact ⟨hholds, fun ⟨hs, hout, hlater⟩ => hleft ⟨hs, hout, .inr hlater⟩⟩
    · rename_i hout
      obtain ⟨_, heq⟩ := m.unregister_eq r.key s
      rw [heq, ih (hsound.remove r.key s), hsound.holds_remove]
      simp only [List.mem_cons, exists_eq_or_imp]
      constructor
      · rintro ⟨⟨hholds, hfirst⟩, hleft⟩
        refine ⟨hholds, ?_⟩
        rintro ⟨hs, hk, hkey | hlater⟩
        · exact hfirst ⟨hkey.symm, hs⟩
        · exact hleft ⟨hs, hk, hlater⟩
      · rintro ⟨hholds, hleft⟩
        refine ⟨⟨hholds, ?_⟩, fun ⟨hs, hk, hlater⟩ => hleft ⟨hs, hk, .inr hlater⟩⟩
        rintro ⟨rfl, hs⟩
        exact hleft ⟨hs, hout, .inl rfl⟩

/-- The registrations of a requester are given up under their own keys. -/
theorem dropOthers_eq (m : Monitor) (requester : Requester) (s : Subscriber)
    (wanted : List ByteRange) : m.dropOthers requester s wanted =
      (Registry.ofRequester requester m.registry).foldl
        (fun m r => if r.key.range ∈ wanted then m else m.unregister r.key s) m := by
  refine List.foldl_ext _ _ m fun m r hr => ?_
  obtain ⟨-, rfl⟩ := Registry.mem_ofRequester.1 hr
  rw [r.range_eq]

theorem holds_dropOthers (hsound : m.registry.Sound) {wanted : List ByteRange} :
    (m.dropOthers requester s wanted).registry.Holds k s' ↔ m.registry.Holds k s' ∧
      ¬ (s' = s ∧ k.requester = requester ∧ k.range ∉ wanted) := by
  rw [dropOthers_eq, holds_foldl_unregister hsound]
  refine and_congr_right fun hholds => not_congr ?_
  obtain ⟨r, hr, hkey, -⟩ := hholds
  have hregistered : (∃ r ∈ Registry.ofRequester requester m.registry, r.key = k) ↔
      k.requester = requester := by
    constructor
    · rintro ⟨r, hr, rfl⟩
      exact (Registry.mem_ofRequester.1 hr).2
    · intro hk
      exact ⟨r, Registry.mem_ofRequester.2 ⟨hr, by rw [hkey, hk]⟩, hkey⟩
  rw [hregistered, and_comm (a := k.range ∉ wanted)]

/-- When ranges have been registered for a subscriber and others dropped, they are all that it has
under a requester; what others have stays. -/
theorem holds_exchanged (hreachable : m.Reachable) {wanted : List ByteRange}
    (hsizes : ∀ range ∈ wanted, 0 < range.size)
    (hreturns : (m.registerAll requester s wanted).2 = none) :
    ((m.registerAll requester s wanted).1.dropOthers requester s wanted).registry.Holds k s' ↔
      if k.requester = requester ∧ s' = s then k.range ∈ wanted ∧ 0 ≤ k.range.start
      else m.registry.Holds k s' := by
  have hregistered := hreachable.of_runs (m.leads_registerAll requester s wanted).runs
  rw [holds_dropOthers hregistered.sound.registry, holds_registerAll hreturns]
  split
  · rename_i hown
    obtain ⟨hr, hs⟩ := hown
    constructor
    · rintro ⟨⟨-, -, hmem, hstart, -⟩ | hholds, hkept⟩
      · exact ⟨hmem, hstart⟩
      · have hmem : k.range ∈ wanted := by
          by_contra hout
          exact hkept ⟨hs, hr, hout⟩
        obtain ⟨registration, hin, rfl, -⟩ := hholds
        exact ⟨hmem, (hreachable.sound.registry.ranges registration hin).1⟩
    · rintro ⟨hmem, hstart⟩
      exact ⟨.inl ⟨hr, hs, hmem, hstart, hsizes k.range hmem⟩, fun hdropped => hdropped.2.2 hmem⟩
  · rename_i hother
    constructor
    · rintro ⟨⟨hr, hs, -⟩ | hholds, -⟩
      · exact absurd ⟨hr, hs⟩ hother
      · exact hholds
    · exact fun hholds => ⟨.inr hholds, fun ⟨hs, hr, _⟩ => hother ⟨hr, hs⟩⟩

/-- The networks of a table are polled at the ranges of their symbols, and what is displayed or
registered otherwise stays. -/
structure Synced (entries : List (Requester × Nat)) (m m' : Monitor) : Prop where
  reactions : m'.reactions = m.reactions
  attached : m'.display.attached = m.display.attached
  workspace : m'.workspace = m.workspace
  markers : ∀ r, r ∉ entries.map (·.1) →
    Assoc.get? r m'.display.markers = Assoc.get? r m.display.markers
  holds : ∀ k s, k.requester ∉ entries.map (·.1) → (m'.registry.Holds k s ↔ m.registry.Holds k s)
  polls : ∀ entry ∈ entries, m'.Polls entry.1 (m.workspace.Lie entry.2)

/-- The marker of a requester is the one that there is, or a new one. -/
theorem marker_spec (m : Monitor) (requester : Requester) :
    ∃ nextStamp markers, (m.marker requester).1 =
        { m with nextStamp, display := { m.display with markers } } ∧
      Assoc.get? requester markers = some (m.marker requester).2 ∧
      (∀ s, Assoc.get? requester m.display.markers = some s → (m.marker requester).2 = s) ∧
      ∀ other, other ≠ requester →
        Assoc.get? other markers = Assoc.get? other m.display.markers := by
  rcases m.marker_cases requester with ⟨s, hs, heq⟩ | ⟨hnone, heq⟩
  · rw [heq]
    exact ⟨_, _, rfl, hs, fun s' hs' => Option.some.inj (hs.symm.trans hs'), fun _ _ => rfl⟩
  · rw [heq]
    refine ⟨_, _, rfl, ?_, ?_, ?_⟩
    · simp [Assoc.get?_set]
    · intro s hs
      cases hnone.symm.trans hs
    · intro other hother
      rw [Assoc.get?_set, if_neg hother]

/-- A network whose symbols can be resolved has their ranges registered for its marker, and then
others dropped. -/
theorem sync_returned (hreturns : (m.sync requester net).2 = none) :
    ∃ wanted, (∀ range, range ∈ wanted ↔ m.workspace.Lie net range) ∧
      ((m.marker requester).1.registerAll requester (m.marker requester).2 wanted).2 = none ∧
      (m.sync requester net).1 =
        ((m.marker requester).1.registerAll requester (m.marker requester).2 wanted).1.dropOthers
          requester (m.marker requester).2 wanted := by
  obtain ⟨nextStamp, markers, hmarked, -⟩ := m.marker_spec requester
  unfold sync at hreturns ⊢
  simp only at hreturns ⊢
  cases hranges : Block.ranges (m.marker requester).1.project
      ((((m.marker requester).1.workspace.network? net).map (·.blocks)).getD []) with
  | error fault =>
    rw [hranges] at hreturns
    cases hreturns
  | ok wanted =>
    rw [hranges] at hreturns
    have hregistered := Outcome.snd_eq_none_of_andThen hreturns
    refine ⟨wanted, fun range => ?_, hregistered, ?_⟩
    · have hlie : range ∈ wanted ↔ _ := Block.mem_ranges hranges
      rwa [hmarked] at hlie
    · simp only
      rw [Outcome.andThen_eq_of_none hregistered]

/-- After a network has been resolved anew, its marker is registered for the ranges of its symbols
and no others, and nothing else has changed. -/
theorem holds_sync (hreachable : m.Reachable) (hreturns : (m.sync requester net).2 = none) :
    (m.sync requester net).1.registry.Holds k s ↔
      if k.requester = requester ∧ s = (m.marker requester).2 then
        m.workspace.Lie net k.range ∧ 0 ≤ k.range.start
      else m.registry.Holds k s := by
  obtain ⟨wanted, hwanted, hregistered, heq⟩ := sync_returned hreturns
  have hsizes (range : ByteRange) (hmem : range ∈ wanted) : 0 < range.size :=
    Block.size_pos_of_lie ((hwanted range).1 hmem)
  have hmarked := hreachable.of_runs (m.leads_marker requester).runs
  obtain ⟨_, _, hmarker, -⟩ := m.marker_spec requester
  rw [heq, holds_exchanged hmarked hsizes hregistered, hwanted, hmarker]

/-- A network that is resolved anew is polled at the ranges of its symbols and no others. -/
theorem synced_sync (hreachable : m.Reachable) (hmarker : m.OnlyMarker requester)
    (hreturns : (m.sync requester net).2 = none) :
    Synced [(requester, net)] m (m.sync requester net).1 := by
  obtain ⟨nextStamp, markers, hmarked, hnew, hold, hothers⟩ := m.marker_spec requester
  have honly (range : ByteRange) (s' : Subscriber)
      (hholds : m.registry.Holds ⟨requester, range⟩ s') : s' = (m.marker requester).2 :=
    (hold s' (hmarker range s' hholds)).symm
  have hholds (k : RegistrationKey) (s' : Subscriber) := holds_sync (k := k) (s := s')
    hreachable hreturns
  obtain ⟨wanted, -, -, heq⟩ := sync_returned hreturns
  have hsame := lasting_sameDisplay.trans
    (sameDisplay_registerAll (m.marker requester).1 requester (m.marker requester).2 wanted)
    (sameDisplay_dropOthers _ requester (m.marker requester).2 wanted)
  rw [← heq, hmarked] at hsame
  obtain ⟨hreactions, hdisplay, -⟩ := hsame
  refine ⟨hreactions, by rw [hdisplay], by rw [workspace, hdisplay]; rfl, ?_, ?_, ?_⟩
  · intro other hother
    rw [hdisplay]
    exact hothers other (by simpa using hother)
  · intro k s' hk
    rw [hholds, if_neg fun hown => hk (by simp [hown.1])]
  · rintro _ hentry
    obtain rfl := List.mem_singleton.1 hentry
    refine ⟨(m.marker requester).2, by rw [hdisplay]; exact hnew, fun range s' => ?_⟩
    rw [hholds]
    by_cases hs : s' = (m.marker requester).2
    · rw [if_pos ⟨rfl, hs⟩]
      simp [hs]
    · rw [if_neg fun hown => hs hown.2]
      exact ⟨fun hheld => absurd (honly range s' hheld) hs, fun h => absurd h.1 hs⟩

theorem Synced.cons {entry : Requester × Nat} {rest : List (Requester × Nat)}
    (h : Synced [entry] m m') (h' : Synced rest m' m'') (hapart : entry.1 ∉ rest.map (·.1)) :
    Synced (entry :: rest) m m'' where
  reactions := h'.reactions.trans h.reactions
  attached := h'.attached.trans h.attached
  workspace := h'.workspace.trans h.workspace
  markers := by
    intro r hr
    rw [List.map_cons, List.mem_cons, not_or] at hr
    exact (h'.markers r hr.2).trans (h.markers r (by simpa using hr.1))
  holds := by
    intro k s hk
    rw [List.map_cons, List.mem_cons, not_or] at hk
    exact (h'.holds k s hk.2).trans (h.holds k s (by simpa using hk.1))
  polls := by
    refine List.forall_mem_cons.2 ⟨?_, fun other hother => ?_⟩
    · have hpolled := h.polls entry (List.mem_singleton_self entry)
      exact hpolled.of_eq (h'.markers _ hapart) fun range s => h'.holds ⟨entry.1, range⟩ s hapart
    · rw [← h.workspace]
      exact h'.polls other hother

/-- Networks that are resolved anew one after the other are each polled at the ranges of their
symbols. -/
theorem synced_forEach_sync (hreachable : m.Reachable) {entries : List (Requester × Nat)}
    (hnodup : (entries.map (·.1)).Nodup) (hmarkers : ∀ entry ∈ entries, m.OnlyMarker entry.1)
    (hreturns : (Outcome.forEach (fun (r, net) => sync r net) entries m).2 = none) :
    Synced entries m (Outcome.forEach (fun (r, net) => sync r net) entries m).1 := by
  induction entries generalizing m with
  | nil => exact ⟨rfl, rfl, rfl, fun _ _ => rfl, fun _ _ _ => .rfl, by simp⟩
  | cons entry rest ih =>
    obtain ⟨hapart, hrest⟩ := List.nodup_cons.1 hnodup
    obtain ⟨hfirst, hothers⟩ := List.forall_mem_cons.1 hmarkers
    obtain ⟨hreturned, heq⟩ := Outcome.forEach_cons hreturns
    rw [heq] at hreturns ⊢
    have hsynced := synced_sync hreachable hfirst hreturned
    refine hsynced.cons (ih (hreachable.of_runs (leads_sync m _ _).runs) hrest ?_ hreturns) hapart
    intro other hother
    have hne : other.1 ∉ [entry].map (·.1) := by
      intro hsame
      rw [List.map_singleton, List.mem_singleton] at hsame
      exact hapart (List.mem_map.2 ⟨other, hother, hsame⟩)
    exact (hothers other hother).of_eq (hsynced.markers _ hne) fun range s =>
      hsynced.holds ⟨other.1, range⟩ s hne

end Monitor

end LadderMonitor
