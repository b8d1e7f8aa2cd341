import LadderMonitor.Proofs.Monitor.Lasting
import LadderMonitor.Proofs.Monitor.Move

namespace LadderMonitor.Monitor

/-- Moves of a certain kind lead from one state to another. -/
def LeadsBy (allowed : Move → Bool) (m m' : Monitor) : Prop :=
  ∃ moves : List Move, (∀ v ∈ moves, allowed v) ∧ m.run moves = m'

/-- Inner moves lead from one state to another. -/
abbrev Leads : Monitor → Monitor → Prop := LeadsBy Move.inner

/-- Inner moves that do not write into the cache lead from one state to another. -/
abbrev LeadsGently : Monitor → Monitor → Prop := LeadsBy Move.gentle

namespace LeadsBy

variable {allowed : Move → Bool} {m m' m'' : Monitor}

theorem refl (m : Monitor) : LeadsBy allowed m m := ⟨[], by simp, rfl⟩

theorem single (m : Monitor) (v : Move) (hallowed : allowed v) : LeadsBy allowed m (m.move v) :=
  ⟨[v], by simpa using hallowed, rfl⟩

theorem trans (h : LeadsBy allowed m m') (h' : LeadsBy allowed m' m'') :
    LeadsBy allowed m m'' := by
  obtain ⟨moves, hmoves, rfl⟩ := h
  obtain ⟨more, hmore, rfl⟩ := h'
  refine ⟨moves ++ more, ?_, run_append m moves more⟩
  exact fun v hv => (List.mem_append.1 hv).elim (hmoves v) (hmore v)

theorem mono {more : Move → Bool} (h : LeadsBy allowed m m')
    (hallowed : ∀ v, allowed v → more v) : LeadsBy more m m' := by
  obtain ⟨moves, hmoves, hrun⟩ := h
  exact ⟨moves, fun v hv => hallowed v (hmoves v hv), hrun⟩

end LeadsBy

theorem LeadsGently.leads {m m' : Monitor} (h : m.LeadsGently m') : m.Leads m' :=
  h.mono fun v hgentle => by
    rw [Move.gentle, Bool.and_eq_true] at hgentle
    exact hgentle.1

theorem lasting_leadsBy (allowed : Move → Bool) : Lasting (LeadsBy allowed) := ⟨.refl, .trans⟩

variable (m : Monitor)

theorem leads_note (event : Event) : m.LeadsGently (m.note event) := .single m (.note event) rfl

theorem leads_stamp : m.LeadsGently m.stamp.1 := .single m .stamp rfl

theorem leads_display (display : Display) : m.LeadsGently { m with display } :=
  .single m (.display display) rfl

theorem leads_watchLists (lists : List (List WatchEntry)) :
    m.LeadsGently { m with watchLists := lists } :=
  .single m (.watchLists lists) rfl

theorem leads_register (key : RegistrationKey) (s : Subscriber) :
    m.LeadsGently (m.register key s).1 :=
  .single m (.register key s) rfl

theorem leads_unregister (key : RegistrationKey) (s : Subscriber) :
    m.LeadsGently (m.unregister key s) :=
  .single m (.unregister key s) rfl

theorem leads_unregisterAll (requester : Requester) : m.LeadsGently (m.unregisterAll requester) :=
  .single m (.unregisterAll requester) rfl

theorem overlooks_leadsGently : Overlooks LeadsGently := by
  refine .of_shown (lasting_leadsBy _) (fun m net => m.leads_note (.evaluated net))
    (fun m report => m.leads_note (.reported report)) ?_
  intro m active workspace due watchLists
  have hasked : m.LeadsGently { m with active } := .single m (.active active) rfl
  exact (hasked.trans (leads_watchLists _ watchLists)).trans (leads_display _ _)

theorem overlooksWatching_leadsGently : OverlooksWatching LeadsGently :=
  .of_register overlooks_leadsGently (fun m event _ => m.leads_note event) leads_stamp
    (fun m _ _ _ _ => m.leads_register _ _) fun m _ s => m.leads_unregister _ s

/-- The marker of a requester is the one that there is, or a new one. -/
theorem marker_cases (requester : Requester) :
    (∃ s, Assoc.get? requester m.display.markers = some s ∧ m.marker requester = (m, s)) ∨
      Assoc.get? requester m.display.markers = none ∧ m.marker requester =
        ({ m with
            nextStamp := m.nextStamp + 1
            display.markers :=
              Assoc.set requester (.display requester m.nextStamp) m.display.markers },
          .display requester m.nextStamp) := by
  unfold marker
  split
  · rename_i s hs
    exact .inl ⟨s, hs, rfl⟩
  · rename_i hnone
    exact .inr ⟨hnone, rfl⟩

theorem leads_marker (requester : Requester) : m.LeadsGently (m.marker requester).1 := by
  rcases m.marker_cases requester with ⟨s, -, heq⟩ | ⟨-, heq⟩
  · rw [heq]
    exact .refl m
  · rw [heq]
    exact m.leads_stamp.trans (leads_display _ _)

theorem leads_registerAll (requester : Requester) (s : Subscriber) (ranges : List ByteRange) :
    m.LeadsGently (m.registerAll requester s ranges).1 :=
  (lasting_leadsBy _).forEach (fun range _ m => m.leads_register ⟨requester, range⟩ s) m

theorem leads_sync (requester : Requester) (net : Nat) :
    m.LeadsGently (m.sync requester net).1 :=
  (lasting_leadsBy _).sync net (m.leads_marker requester) (fun m _ => m.leads_register _ _)
    fun m _ => m.leads_unregister _ _

theorem leads_attach (net : Nat) : m.LeadsGently (m.attach net).1 :=
  overlooks_leadsGently.attach m net (leads_display _ _) fun m => m.leads_sync _ net

theorem leads_detach (net : Nat) : m.LeadsGently (m.detach net) :=
  (lasting_leadsBy _).detach net (m.leads_display _) fun m => m.leads_unregisterAll _

/-- Every command but a reset leaves the cache alone, whoever is called. -/
theorem leadsGently_perform (react : Reactor) {command : Command} (hcommand : command ≠ .reset) :
    m.LeadsGently (m.perform react command).1 := by
  cases command with
  | register key s => exact m.leads_register key s
  | unregister key s => exact m.leads_unregister key s
  | unregisterAll requester => exact m.leads_unregisterAll requester
  | reset => exact absurd rfl hcommand
  | attach net => exact m.leads_attach net
  | detach net => exact m.leads_detach net
  | edit edit => exact m.leads_display _
  | _ =>
    refine overlooks_leadsGently.perform overlooksWatching_leadsGently.toOverlooksEntries ?_ react
      rfl m
    intro m v hswitch
    refine .single m v ?_
    cases v with
    | listen | unlisten | start | stop | connected | active | device => rfl
    | _ => cases hswitch

theorem overlooksWatching_leads : OverlooksWatching Leads :=
  overlooksWatching_leadsGently.mono (lasting_leadsBy _) fun _ _ h => h.leads

/-- What happens inside subscribers and listeners is made of inner moves. -/
structure Reactor.Inner (react : Reactor) : Prop where
  deliver : ∀ s data (m : Monitor), m.Leads (react.deliver s data m).1
  tell : ∀ listener (m : Monitor), m.Leads (react.tell listener m).1

variable {m} {react : Reactor}

theorem Reactor.Inner.within (h : react.Inner) : react.Within Leads := ⟨h.deliver, h.tell⟩

theorem Reactor.Inner.serve (h : react.Inner) (start : Int) (data : Bytes) (m : Monitor)
    (r : Registration) : m.Leads (m.serve react start data r) :=
  overlooksWatching_leads.serve m h.within start data r

theorem Reactor.Inner.tellAll (h : react.Inner) (m : Monitor) : m.Leads (m.tellAll react) :=
  overlooksWatching_leads.tellAll m h.within

theorem Reactor.Inner.reset (h : react.Inner) (m : Monitor) : m.Leads (m.reset react).1 :=
  overlooksWatching_leads.reset m (fun entry _ m => (m.leads_sync entry.1 entry.2).leads)
    fun m => overlooksWatching_leads.resetMemory m h.within (.single m .clear rfl)

/-- Every command is made of inner moves, if subscribers and listeners are. -/
theorem Reactor.Inner.perform (h : react.Inner) (command : Command) (m : Monitor) :
    m.Leads (m.perform react command).1 := by
  cases command with
  | reset => exact h.reset m
  | _ => exact (m.leadsGently_perform react (by simp)).leads

/-- However deep reactions nest, they are made of inner moves. -/
theorem inner_reactor : reactor.Inner := by
  have hwithin : reactor.Within Leads :=
    overlooksWatching_leads.toOverlooks.within_reactor (fun _ => True)
      (fun _ _ hleads => hleads fun _ _ _ _ => trivial)
      fun react hreact command _ m => Reactor.Inner.perform ⟨hreact.deliver, hreact.tell⟩ command m
  exact ⟨hwithin.deliver, hwithin.tell⟩

end LadderMonitor.Monitor
