import LadderMonitor.Proofs.Monitor.HalfAttached
import LadderMonitor.Proofs.Monitor.OnePoller
import LadderMonitor.Proofs.Monitor.Watching

namespace LadderMonitor

/-- Whether a command leaves alone a task that polls. -/
def Command.Calm : Command → Prop
  | stop | unregister .. | unregisterAll _ | attach _ | detach _ | reset | unwatch .. | clearList _
  | refreshList _ => False
  | _ => True

namespace Monitor

variable {m m' m'' : Monitor} {requester : Requester} {net id : Nat} {e : WatchEntry}

/-- What is left has been registered before, and as long as anything is left, the poll tasks are as
they were. Once nothing is left the task is given up for good, so when registrations are replaced
one after the other, the lowest points on the way count. -/
def Sheds (m m' : Monitor) : Prop :=
  m'.registry ≠ [] → m.registry ≠ [] ∧ m'.poller = m.poller

theorem lasting_sheds : Lasting Sheds where
  refl := fun _ hleft => ⟨hleft, rfl⟩
  trans := by
    intro m m' m'' h h' hleft
    obtain ⟨hbetween, hpoller'⟩ := h' hleft
    obtain ⟨hbefore, hpoller⟩ := h hbetween
    exact ⟨hbefore, hpoller'.trans hpoller⟩

theorem overlooks_sheds : Overlooks Sheds :=
  .of_shown lasting_sheds (fun _ _ hleft => ⟨hleft, rfl⟩) (fun _ _ hleft => ⟨hleft, rfl⟩)
    fun _ _ _ _ _ hleft => ⟨hleft, rfl⟩

theorem sheds_unregister (m : Monitor) (key : RegistrationKey) (s : Subscriber) :
    Sheds m (m.unregister key s) := by
  intro hleft
  rw [registry_unregister] at hleft
  refine ⟨?_, ?_⟩
  · rintro hnone
    rw [hnone] at hleft
    exact hleft rfl
  · rw [unregister, stopIfIdle, if_neg (by simpa using hleft)]

theorem overlooksUnwatching_sheds : OverlooksUnwatching Sheds where
  toOverlooksLists := overlooks_sheds.toOverlooksLists
  unregister := fun m range s => m.sheds_unregister ⟨.watch, range⟩ s

theorem sheds_dropOthers (m : Monitor) (requester : Requester) (s : Subscriber)
    (wanted : List ByteRange) : Sheds m (m.dropOthers requester s wanted) := by
  refine lasting_sheds.foldl (fun m r => ?_) _ m
  split
  · exact lasting_sheds.refl m
  · exact m.sheds_unregister ⟨requester, r.range⟩ s

/-- The task that polls, if there is one, goes on. -/
def PollsOn (m m' : Monitor) : Prop := m.running → m'.poller = m.poller

theorem PollsOn.running (h : PollsOn m m') (hrunning : m.running) : m'.running := by
  rw [Monitor.running, h hrunning]
  exact hrunning

theorem lasting_pollsOn : Lasting PollsOn where
  refl := fun _ _ => rfl
  trans := fun h h' hrunning => (h' (h.running hrunning)).trans (h hrunning)

theorem pollsOn_register (m : Monitor) (key : RegistrationKey) (s : Subscriber) :
    PollsOn m (m.register key s).1 := by
  intro hrunning
  rcases m.register_cases key s with heq | ⟨-, heq⟩
  · rw [heq]
  · have hentered : (m.enter key s).running := hrunning
    rw [heq, startIfActive, if_pos hentered]
    rfl

/-- A network that is resolved anew is registered at its new ranges before it gives up others, so
polling goes on if anything is registered in the end. -/
theorem pollsOn_sync (hleft : (m.sync requester net).1.registry ≠ []) :
    PollsOn m (m.sync requester net).1 := by
  have hmarked : PollsOn m (m.marker requester).1 := by
    obtain ⟨_, _, heq, -⟩ := m.marker_spec requester
    rw [heq]
    exact lasting_pollsOn.refl m
  have hregistered (ranges : List ByteRange) : PollsOn m
      ((m.marker requester).1.registerAll requester (m.marker requester).2 ranges).1 :=
    lasting_pollsOn.trans hmarked
      (lasting_pollsOn.forEach (fun range _ m => m.pollsOn_register ⟨requester, range⟩ _) _)
  cases hfault : (m.sync requester net).2 with
  | some fault =>
    rcases sync_stopped hfault with ⟨-, heq⟩ | ⟨-, ranges, -, heq⟩
    · rwa [heq]
    · rw [← congrArg Prod.fst heq]
      exact hregistered ranges
  | none =>
    obtain ⟨ranges, -, -, heq⟩ := sync_returned hfault
    rw [heq] at hleft ⊢
    obtain ⟨-, hpoller⟩ := sheds_dropOthers _ _ _ _ hleft
    exact fun hrunning => hpoller.trans (hregistered ranges hrunning)

/-- Polling goes on while a network is attached, for the first time or again, if anything is
registered in the end. -/
theorem pollsOn_attach (hleft : (m.attach net).1.registry ≠ []) : PollsOn m (m.attach net).1 := by
  have hevaluated (m : Monitor) : (m.evaluate net).1.registry = m.registry ∧
      (m.evaluate net).1.poller = m.poller := by
    obtain ⟨_, _, _, -, heq⟩ := m.evaluate_eq net
    rw [heq]
    exact ⟨rfl, rfl⟩
  have hentered : PollsOn m { m.invalidate net with
      display.attached :=
        Assoc.set (m.requesterOf net) net (m.invalidate net).display.attached } := fun _ => rfl
  refine lasting_pollsOn.trans hentered ?_
  unfold attach at hleft ⊢
  simp only at hleft ⊢
  generalize { m.invalidate net with
      display.attached :=
        Assoc.set (m.requesterOf net) net (m.invalidate net).display.attached } = before at hleft ⊢
  cases hfault : (before.sync (m.requesterOf net) net).2 with
  | some fault =>
    rw [Outcome.andThen_eq_of_some hfault] at hleft ⊢
    exact pollsOn_sync hleft
  | none =>
    rw [Outcome.andThen_eq_of_none hfault] at hleft ⊢
    rw [(hevaluated _).1] at hleft
    exact fun hrunning => (hevaluated _).2.trans (pollsOn_sync hleft hrunning)

theorem pollsOn_startEntry (m : Monitor) (e : WatchEntry) : PollsOn m (m.startEntry e).1 := by
  unfold startEntry
  split
  · exact lasting_pollsOn.refl m
  · simp only
    split
    · exact fun _ => rfl
    · refine lasting_pollsOn.trans ?_ (pollsOn_register _ _ _)
      exact fun _ => rfl

/-- An entry that is stopped and started again gives up first what it has registered, so polling
goes on if anything else is registered. -/
theorem pollsOn_restart (hleft : (m.stopEntry e).registry ≠ []) :
    PollsOn m ((m.stopEntry e).startEntry e).1 :=
  lasting_pollsOn.trans (fun _ => (overlooksUnwatching_sheds.stopEntry m e hleft).2)
    (pollsOn_startEntry _ e)

/-- Something is registered, or a task is not current any more. -/
structure Lingers (id : Nat) (m : Monitor) : Prop where
  known : id < m.poller.nextId
  registered : m.registry ≠ [] ∨ m.Stale id

/-- Once something is registered, this ends only with the end of the task that polls. -/
theorem Lingers.move (h : m.Lingers id) (v : Move) : (m.move v).Lingers id := by
  have hstep := m.pollStep_move v
  have hknown : id < (m.move v).poller.nextId := by
    rcases hstep.current_cases with ⟨hnext, -⟩ | ⟨-, hnext, -⟩
    · rw [hnext]
      exact h.known
    · rw [hnext]
      exact Nat.lt_succ_of_lt h.known
  refine ⟨hknown, ?_⟩
  rcases h.registered with hregistered | hstale
  · have hemptied (hcurrent : (m.move v).registry = [] → (m.move v).poller.current = none) :
        (m.move v).registry ≠ [] ∨ (m.move v).Stale id := by
      refine or_iff_not_imp_left.2 fun hnone => ⟨hknown, ?_⟩
      rw [hcurrent (not_not.1 hnone)]
      simp
    cases v with
    | register key s =>
      rcases (m.register_records key s).2 with heq | ⟨heq, -⟩
      · exact .inl (by rwa [Monitor.move, heq])
      · exact .inl (by rw [Monitor.move, heq]; exact Registry.add_ne_nil)
    | unregister key s => exact hemptied current_stopIfIdle
    | unregisterAll requester => exact hemptied current_stopIfIdle
    | _ => exact .inl (by rwa [(records_move_of_spares rfl m).1])
  · exact .inr (hstale.step hstep)

theorem Lingers.of_runs (h : m.Lingers id) (hruns : m.Runs m') : m'.Lingers id := by
  obtain ⟨moves, -, rfl⟩ := hruns
  induction moves generalizing m with
  | nil => exact h
  | cons v rest ih => exact ih (h.move v)

theorem Stale.of_runs (h : m.Stale id) (hruns : m.Runs m') : m'.Stale id := by
  obtain ⟨moves, -, rfl⟩ := hruns
  exact h.run moves

/-- Polling goes on under a condition and only then: if it holds, all tasks are as they were, and if
not, the task that polled is not the current one any more. -/
structure PollsOnIff (m m' : Monitor) (condition : Prop) : Prop where
  kept : condition → m'.poller = m.poller
  replaced : ¬ condition → ∀ id, m.poller.current = some id → m'.Stale id

namespace PollsOnIff

variable {P Q : Prop}

theorem congr (h : PollsOnIff m m' P) (hiff : P ↔ Q) : PollsOnIff m m' Q := propext hiff ▸ h

theorem of_poller_eq (h : PollsOnIff m' m'' P) (hpoller : m'.poller = m.poller) :
    PollsOnIff m m'' P where
  kept := fun hP => (h.kept hP).trans hpoller
  replaced := fun hP id hcurrent => h.replaced hP id (hpoller ▸ hcurrent)

/-- What follows leaves a task alone that goes on. -/
theorem followed (h : PollsOnIff m m' P) (hrunning : m.running) (hfollows : PollsOn m' m'')
    (hruns : m'.Runs m'') : PollsOnIff m m'' P where
  kept := fun hP => lasting_pollsOn.trans (fun _ => h.kept hP) hfollows hrunning
  replaced := fun hP id hcurrent => (h.replaced hP id hcurrent).of_runs hruns

end PollsOnIff

section Row

variable {α : Type} {act : α → Monitor → Outcome} (low : α → Monitor → Monitor) {items : List α}

/-- Polling goes on while registrations are replaced if something is registered whenever one
replacement is at its lowest point. -/
theorem pollsOn_forEach (hact : ∀ a m, (low a m).registry ≠ [] → PollsOn m (act a m).1)
    (hreturns : (Outcome.forEach act items m).2 = none)
    (hbusy : ∀ done a left, items = done ++ a :: left →
      (low a (Outcome.forEach act done m).1).registry ≠ []) :
    PollsOn m (Outcome.forEach act items m).1 := by
  induction items generalizing m with
  | nil => exact lasting_pollsOn.refl m
  | cons a rest ih =>
    obtain ⟨hfirst, heq⟩ := Outcome.forEach_cons hreturns
    rw [heq] at hreturns ⊢
    refine lasting_pollsOn.trans (hact a m (hbusy [] a rest rfl)) (ih hreturns ?_)
    intro done b left hsplit
    have hlater := hbusy (a :: done) b left (by rw [hsplit, List.cons_append])
    rwa [Outcome.forEach, Outcome.andThen_eq_of_none hfirst] at hlater

/-- If nothing is registered at one of these points, the task that polled is gone for good. -/
theorem stale_of_forEach (hfalls : ∀ a (m : Monitor), m.Runs (low a m))
    (hrises : ∀ a m, (low a m).Runs (act a m).1) (hlingers : m.Lingers id) {done left : List α}
    {a : α} (hreturns : (Outcome.forEach act (done ++ a :: left) m).2 = none)
    (hempty : (low a (Outcome.forEach act done m).1).registry = []) :
    (Outcome.forEach act (done ++ a :: left) m).1.Stale id := by
  have hlasting : Lasting Runs := lasting_leadsBy _
  have hruns (a : α) (m : Monitor) : m.Runs (act a m).1 :=
    hlasting.trans (hfalls a m) (hrises a m)
  obtain ⟨-, hrest⟩ := Outcome.forEach_split hreturns
  rw [hrest] at hreturns ⊢
  obtain ⟨-, hlater⟩ := Outcome.forEach_cons hreturns
  rw [hlater]
  generalize hbefore : (Outcome.forEach act done m).1 = before at hempty ⊢
  have hreached : m.Runs before := hbefore ▸ hlasting.forEach (fun a _ => hruns a) m
  have hstale : (low a before).Stale id :=
    ((hlingers.of_runs (hlasting.trans hreached (hfalls a before))).registered).resolve_left
      (not_not.2 hempty)
  exact hstale.of_runs (hlasting.trans (hrises a before) (hlasting.forEach (fun a _ => hruns a) _))

theorem pollsOnIff_forEach (hreachable : m.Reachable) (hrunning : m.running)
    (hregistered : m.registry ≠ [])
    (hact : ∀ a m, (low a m).registry ≠ [] → PollsOn m (act a m).1)
    (hfalls : ∀ a (m : Monitor), m.Runs (low a m)) (hrises : ∀ a m, (low a m).Runs (act a m).1)
    (hreturns : (Outcome.forEach act items m).2 = none) :
    PollsOnIff m (Outcome.forEach act items m).1 (∀ done a left, items = done ++ a :: left →
      (low a (Outcome.forEach act done m).1).registry ≠ []) where
  kept := fun hbusy => pollsOn_forEach low hact hreturns hbusy hrunning
  replaced := by
    intro hidle id hcurrent
    push Not at hidle
    obtain ⟨done, a, left, rfl, hempty⟩ := hidle
    have hlingers : m.Lingers id := ⟨hreachable.paced.poller.current id hcurrent, .inl hregistered⟩
    exact stale_of_forEach low hfalls hrises hlingers hreturns hempty

end Row

theorem pollsOn_watch (m : Monitor) (list : Nat) (name : String) :
    PollsOn m (m.watch list name).1 := by
  unfold watch
  simp only
  split
  · exact fun _ => rfl
  · refine lasting_pollsOn.trans ?_ (pollsOn_startEntry _ _)
    exact fun _ => rfl

/-- Those outside go on to give calm commands only, and so does the task that polls. -/
def Calmly (m m' : Monitor) : Prop :=
  m.Gives Command.Calm → m'.Gives Command.Calm ∧ PollsOn m m'

theorem lasting_calmly : Lasting Calmly where
  refl := fun m hgives => ⟨hgives, lasting_pollsOn.refl m⟩
  trans := by
    intro m m' m'' h h' hgives
    obtain ⟨hgives', hfirst⟩ := h hgives
    obtain ⟨hgives'', hnext⟩ := h' hgives'
    exact ⟨hgives'', lasting_pollsOn.trans hfirst hnext⟩

theorem overlooksCalls_calmly : OverlooksCalls Calmly where
  toOverlooksDisplay := (Overlooks.of_shown lasting_calmly
    (fun _ _ hgives => ⟨hgives, fun _ => rfl⟩) (fun _ _ hgives => ⟨hgives, fun _ => rfl⟩)
    fun _ _ _ _ _ hgives => ⟨hgives, fun _ => rfl⟩).toOverlooksDisplay
  noted := fun _ _ _ hgives => ⟨hgives, fun _ => rfl⟩

theorem calmly_perform (react : Reactor) {command : Command} (hcalm : command.Calm) (m : Monitor) :
    Calmly m (m.perform react command).1 := by
  have hmove (m : Monitor) (v : Move) (hpolls : PollsOn m (m.move v)) : Calmly m (m.move v) :=
    fun hgives => ⟨hgives.of_eq (m.spared_move v).reactions, hpolls⟩
  cases command with
  | register key s => exact hmove m (.register key s) (m.pollsOn_register key s)
  | edit edit => exact fun hgives => ⟨hgives, fun _ => rfl⟩
  | watch list name =>
    have hsame := (overlooksEntries_discreetly.watch m list name).gently.runs.reactions
    exact fun hgives => ⟨hgives.of_eq hsame, m.pollsOn_watch list name⟩
  | stop | unregister | unregisterAll | attach | detach | reset | unwatch | clearList
  | refreshList => cases hcalm
  | _ =>
    refine overlooksCalls_calmly.toOverlooksEvaluation.perform (fun m v hswitch => hmove m v ?_)
      (overlooksCalls_calmly.openList m) (fun hwatches => ?_) rfl
    · cases v with
      | start => exact fun hrunning => by rw [Monitor.move, start, hrunning]; rfl
      | listen listener =>
        obtain ⟨_, heq⟩ := m.listen_eq listener
        exact fun _ => by rw [Monitor.move, heq]
      | stop => cases hswitch
      | unlisten | connected | active | device => exact fun _ => rfl
      | _ => cases hswitch
    · cases hwatches

theorem within_reactor_calmly : reactor.Within Calmly :=
  overlooksCalls_calmly.within_reactor Command.Calm
    (fun _ _ hcalmly hgives => hcalmly hgives hgives)
    fun react _ _ hcalm m => calmly_perform react hcalm m

theorem calmly_resetMemory (m : Monitor) : Calmly m (m.resetMemory reactor) :=
  overlooksCalls_calmly.resetMemory m within_reactor_calmly fun hgives => ⟨hgives, fun _ => rfl⟩

end Monitor

end LadderMonitor
