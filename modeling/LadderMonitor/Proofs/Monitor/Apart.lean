import LadderMonitor.Proofs.Monitor.Poised

namespace LadderMonitor

/-- Whether no two networks have one name; any number of them may have none. -/
def Workspace.NamesApart (w : Workspace) : Prop :=
  ((w.networks.map (·.name)).filter (· ≠ "")).Nodup

instance (w : Workspace) : Decidable w.NamesApart :=
  inferInstanceAs (Decidable ((w.networks.map (·.name)).filter (· ≠ "")).Nodup)

/-- A name is that of one network only. -/
theorem Workspace.NamesApart.eq_of_name {w : Workspace} (h : w.NamesApart) {net net' : Nat}
    {name : String} (hname : name ≠ "") (hnet : (w.networks.map (·.name))[net]? = some name)
    (hnet' : (w.networks.map (·.name))[net']? = some name) : net = net' := by
  have hpairs := List.pairwise_iff_getElem.1 (List.pairwise_filter.1 h)
  obtain ⟨hlt, heq⟩ := List.getElem?_eq_some_iff.1 hnet
  obtain ⟨hlt', heq'⟩ := List.getElem?_eq_some_iff.1 hnet'
  have happly (i j : Nat) (hi : i < (w.networks.map (·.name)).length)
      (hj : j < (w.networks.map (·.name)).length) (hsame : (w.networks.map (·.name))[i] = name)
      (hsame' : (w.networks.map (·.name))[j] = name) : ¬ i < j := fun hij =>
    hpairs i j hi hj hij (by simpa [hsame] using hname) (by simpa [hsame'] using hname)
      (hsame.trans hsame'.symm)
  exact Nat.le_antisymm (Nat.not_lt.1 (happly net' net hlt' hlt heq' heq))
    (Nat.not_lt.1 (happly net net' hlt hlt' heq heq'))

namespace Monitor

variable {m m' : Monitor} {net : Nat} {requester : Requester} {v : Move}

/-- A network is polled in its name, or by its number if it has none. -/
theorem requesterOf_cases (m : Monitor) (net : Nat) :
    m.requesterOf net = .network net ∨
      ∃ name, name ≠ "" ∧ (m.workspace.networks.map (·.name))[net]? = some name ∧
        m.requesterOf net = .named ("network:" ++ name) := by
  unfold requesterOf
  cases hnet : m.workspace.network? net with
  | none => exact .inl rfl
  | some n =>
    by_cases hname : n.name = ""
    · exact .inl (by simp [Requester.ofNetwork, hname])
    · refine .inr ⟨n.name, hname, ?_, by simp [Requester.ofNetwork, hname]⟩
      rw [List.getElem?_map]
      exact congrArg (Option.map Network.name) hnet

/-- Networks of different names have different requesters. -/
theorem requesterOf_injective (h : m.workspace.NamesApart) : Function.Injective m.requesterOf := by
  intro net net' heq
  rcases m.requesterOf_cases net with hnone | ⟨name, hname, hnet, hsome⟩
  · rcases m.requesterOf_cases net' with hnone' | ⟨name', -, -, hsome'⟩
    · rw [hnone, hnone'] at heq
      exact Requester.network.inj heq
    · rw [hnone, hsome'] at heq
      cases heq
  · rcases m.requesterOf_cases net' with hnone' | ⟨name', -, hnet', hsome'⟩
    · rw [hsome, hnone'] at heq
      cases heq
    · rw [hsome, hsome'] at heq
      have hsame : name = name' :=
        (String.append_right_inj _).1 (Requester.named.inj heq)
      exact h.eq_of_name hname hnet (hsame ▸ hnet')

/-- What is registered in the name of others is as it was. -/
def LeavesOthers (requester : Requester) (m m' : Monitor) : Prop :=
  ∀ r : Registration, r.key.requester ≠ requester → (r ∈ m'.registry ↔ r ∈ m.registry)

theorem lasting_leavesOthers : Lasting (LeavesOthers requester) where
  refl := fun _ _ _ => .rfl
  trans := fun h h' r hr => (h' r hr).trans (h r hr)

theorem overlooks_leavesOthers : Overlooks (LeavesOthers requester) :=
  .of_shown lasting_leavesOthers (fun _ _ _ _ => .rfl) (fun _ _ _ _ => .rfl)
    fun _ _ _ _ _ _ _ => .rfl

theorem leavesOthers_move (m : Monitor) (hv : ∀ other, v.Touches other → other = requester) :
    LeavesOthers requester m (m.move v) :=
  fun _ hr => m.mem_registry_move fun htouches => hr (hv _ htouches)

theorem leavesOthers_sync (m : Monitor) (requester : Requester) (net : Nat) :
    LeavesOthers requester m (m.sync requester net).1 := by
  refine lasting_leavesOthers.sync net ?_
    (fun m range => m.leavesOthers_move (v := .register ⟨requester, range⟩ _) fun _ => Eq.symm)
    fun m range => m.leavesOthers_move (v := .unregister ⟨requester, range⟩ _) fun _ => Eq.symm
  obtain ⟨_, _, heq, -⟩ := m.marker_spec requester
  rw [heq]
  exact fun _ _ => .rfl

theorem leavesOthers_attach (m : Monitor) (net : Nat) :
    LeavesOthers (m.requesterOf net) m (m.attach net).1 :=
  overlooks_leavesOthers.attach m net (fun _ _ => .rfl) fun m' => m'.leavesOthers_sync _ net

theorem leavesOthers_detach (m : Monitor) (net : Nat) :
    LeavesOthers (m.requesterOf net) m (m.detach net) :=
  lasting_leavesOthers.detach net (fun _ _ => .rfl)
    fun m' => m'.leavesOthers_move (v := .unregisterAll _) fun _ => Eq.symm

/-- The states of a monitor whose project stays as it is: networks are attached, detached and
evaluated, ticks happen, and others watch and register, in whatever order. -/
inductive Undisturbed : Monitor → Prop where
  | opened {m : Monitor} (huntouched : m.Untouched) (hlistening : .display ∈ m.listeners)
      (hgives : m.Gives fun command => command.Discreet ∧ command.Proper) : Undisturbed m
  | turn {m : Monitor} (h : Undisturbed m) (v : Turn) (hv : v.Unobtrusive) :
      Undisturbed (m.turn reactor v)

theorem Turn.Unobtrusive.proper {v : Turn} (h : v.Unobtrusive) : v.Proper := by
  cases v with
  | command command =>
    cases command with
    | attach | detach | evaluate => trivial
    | _ => exact h.2
  | _ => trivial

namespace Undisturbed

theorem turns (h : m.Undisturbed) {list : List Turn} (hlist : ∀ v ∈ list, v.Unobtrusive) :
    (m.turns reactor list).Undisturbed := by
  induction list generalizing m with
  | nil => exact h
  | cons v rest ih =>
    obtain ⟨hv, hrest⟩ := List.forall_mem_cons.1 hlist
    exact ih (h.turn v hv) hrest

theorem inService (h : m.Undisturbed) : m.InService := by
  induction h with
  | opened huntouched hlistening hgives =>
    exact .opened huntouched hlistening fun entry hentry command hmem =>
      (hgives entry hentry command hmem).2
  | turn _ v hv ih => exact ih.turn v hv.proper

theorem poised (h : m.Undisturbed) : ∃ m₀, Poised m₀ m := by
  induction h with
  | @opened m huntouched hlistening hgives =>
    have hproper : m.Gives Command.Proper := fun entry hentry command hmem =>
      (hgives entry hentry command hmem).2
    have hdiscreet : m.Gives Command.Discreet := fun entry hentry command hmem =>
      (hgives entry hentry command hmem).1
    refine ⟨m, huntouched.tended hlistening hproper, hdiscreet, .refl _, ?_, ?_, ?_⟩
    · simp [huntouched.attached]
    · simp [records, huntouched.registry, huntouched.retired]
    · simp [huntouched.due]
  | @turn m _ v hv ih =>
    obtain ⟨m₀, hposed⟩ := ih
    obtain ⟨net, hkept⟩ : ∃ net, v ≠ .command (.detach net) := by
      by_cases hzero : v = .command (.detach 0)
      · exact ⟨1, by simp [hzero]⟩
      · exact ⟨0, hzero⟩
    have hattends : Attends m₀ (.watch, net) m (m.turn reactor v) := attends_turn m hv hkept
    exact ⟨m₀, (hattends hposed).1⟩

end Undisturbed

/-- When a tick has ended, no network is due any more. -/
theorem due_of_ended {m₀ : Monitor} (h : m.Undisturbed) (hposed : Poised m₀ m)
    (hregular : m₀.Regular) (hmonitoring : m.Monitoring) {tick : Tick}
    (hended : m.ended? (.conclude tick) = some tick) :
    (m.turn reactor (.conclude tick)).display.due = [] := by
  obtain ⟨_, -, -, hrefreshed⟩ := hposed.tended.refreshed_endTick
    h.inService.reachable.sound.listeners hposed.gives hmonitoring
    (fun entry hentry hdue => hposed.evaluable hregular hentry hdue) tick
  rw [Monitor.turn, hended]
  exact hrefreshed.due

/-- Whether all bytes that have been handed to the display of a network since a point in the journal
have led to an evaluation of the network. -/
def KeptUp (since : List Event) (entry : Requester × Nat) (m : Monitor) : Prop :=
  ∀ later earlier key s data, m.journal = later ++ .delivered key s data :: earlier →
    since <:+ earlier → s.Displays entry.1 → .evaluated entry.2 ∈ later

theorem Heeds.keptUp {entry : Requester × Nat} (h : Heeds entry m m')
    (hdue : entry.1 ∉ m'.display.due) : m'.KeptUp m.journal entry := by
  obtain ⟨events, hjournal, howed⟩ := h
  rintro later _ key s data hsplit ⟨earlier, rfl⟩ hdisplays
  by_contra hnone
  refine hdue (howed ?_)
  have hevents : events = later ++ .delivered key s data :: earlier := by
    rw [hjournal] at hsplit
    refine List.append_cancel_right (hsplit.trans ?_)
    rw [List.append_assoc, List.cons_append]
  rw [hevents]
  exact Event.owed_of_updates hdisplays hnone

/-- Attached networks are independent, unless they have one name.

Attaching or detaching a network leaves alone whatever is registered for a network with another
requester, which all other networks have if no two networks have one name. Then, while monitoring is
active, a network that is attached stays so until it is detached itself, whatever is attached,
detached and evaluated and whichever ticks happen in the meantime; and whenever a tick ends, it has
been evaluated after all bytes that were handed to its display. The symbols of the networks may be
such that they cannot be resolved, but none may lie at an address that is too long to be written
out. -/
theorem Undisturbed.networks_independent (h : m.Undisturbed) {entry : Requester × Nat}
    (hentry : entry ∈ m.display.attached) :
    (∀ net, m.requesterOf net ≠ entry.1 → ∀ r : Registration, r.key.requester = entry.1 →
      (r ∈ (m.turn reactor (.command (.attach net))).registry ↔ r ∈ m.registry) ∧
        (r ∈ (m.turn reactor (.command (.detach net))).registry ↔ r ∈ m.registry)) ∧
    (m.workspace.NamesApart →
      (∀ net, net ≠ entry.2 → m.requesterOf net ≠ entry.1) ∧
      (m.Monitoring → (∀ net, m.workspace.Nameable net) → ∀ list : List Turn,
        (∀ v ∈ list, v.Unobtrusive ∧ v ≠ .command (.detach entry.2)) →
          entry ∈ (m.turns reactor list).display.attached ∧
          ∀ tick, (m.turns reactor list).ended? (.conclude tick) = some tick →
            ((m.turns reactor list).turn reactor (.conclude tick)).KeptUp m.journal entry)) := by
  obtain ⟨m₀, hposed⟩ := h.poised
  refine ⟨fun net hother r hr => ?_, fun hnames => ⟨fun net hother hsame => hother ?_,
    fun hmonitoring hnameable list hlist => ?_⟩⟩
  · have hbeside : r.key.requester ≠ m.requesterOf net := fun hsame => hother (hsame.symm.trans hr)
    exact ⟨m.leavesOthers_attach net r hbeside, m.leavesOthers_detach net r hbeside⟩
  · rw [hposed.tended.named entry hentry] at hsame
    exact requesterOf_injective hnames hsame
  · have hregular : m₀.Regular := by
      have hsame : m₀.requesterOf = m.requesterOf :=
        funext fun net => (hposed.requesterOf_eq net).symm
      refine ⟨?_, fun net => hposed.alike.symm.nameable (hnameable net)⟩
      rw [hsame]
      exact requesterOf_injective hnames
    have hrun : Attends m₀ entry m (m.turns reactor list) := lasting_attends.foldl_of_mem
      (fun v hv m => attends_turn m (hlist v hv).1 (hlist v hv).2) m
    obtain ⟨hposed', hattends⟩ := hrun hposed
    obtain ⟨hattentive, hheeds⟩ := hattends ⟨hregular, hmonitoring, hentry⟩
    refine ⟨hattentive.attached, fun tick hended => ?_⟩
    have hconcluded : Attends m₀ entry _ _ := attends_turn (m.turns reactor list)
      (v := .conclude tick) trivial (by simp)
    obtain ⟨-, hheeds'⟩ := (hconcluded hposed').2 hattentive
    refine (hheeds.trans hheeds').keptUp ?_
    rw [due_of_ended (h.turns fun v hv => (hlist v hv).1) hposed' hregular hattentive.monitoring
      hended]
    exact List.not_mem_nil

/-- Three networks, of which the last has no name and a symbol that cannot be resolved; the others
are attached. -/
def row : Monitor :=
  (createDisplay { cacheSize := 8 } {}
    { project := { Project.empty with networks :=
        [⟨"left", "", [contact "p" "0.0"], []⟩, ⟨"right", "", [contact "q" "1.0"], []⟩,
          ⟨"", "", [contact "r" "\u212a10"], []⟩] } }).turns reactor
    [.command (.attach 0), .command (.attach 1)]

/-- The last network is to be attached, and while a tick waits for its answer, the right one is
detached. -/
def rowTurns : List Turn :=
  [.command (.attach 2), .tick, .command (.detach 1), .reply 6 (.ok #[1, 1])]

def rowTick : Tick := ⟨5, none, []⟩

theorem row_networks_independent :
    (∀ r : Registration, r.key.requester = .named "network:left" →
      (r ∈ (row.turn reactor (.command (.detach 1))).registry ↔ r ∈ row.registry)) ∧
    (row.perform reactor (.attach 2)).2 = some (.letterWithoutRegion '\u212a') ∧
    (.delivered ⟨.named "network:left", ⟨0, 1⟩⟩ (.display (.named "network:left") 0) #[1] ∈
      (row.turns reactor rowTurns).journal) ∧
    ((row.turns reactor rowTurns).turn reactor (.conclude rowTick)).KeptUp row.journal
      (.named "network:left", 0) := by
  have hopened : row.Undisturbed := by
    rw [row]
    exact .turns (.opened (untouched_createDisplay _ _ _) (List.mem_singleton_self _)
      (gives_of_length rfl _)) (by simp [Turn.Unobtrusive, Command.Unobtrusive])
  have hattached : (.named "network:left", 0) ∈ row.display.attached := by decide +kernel
  obtain ⟨hregistered, hkept⟩ := Undisturbed.networks_independent hopened hattached
  refine ⟨fun r hr => (hregistered 1 (by decide +kernel) r hr).2, by decide +kernel,
    by decide +kernel, ?_⟩
  obtain ⟨-, hkeptUp⟩ := hkept (by decide +kernel)
  have hnameable := Workspace.nameable_of_networks (w := row.workspace) (by decide +kernel)
  refine (hkeptUp (monitoring_of_none (by decide +kernel)) hnameable rowTurns ?_).2 rowTick
    (by decide +kernel)
  simp [rowTurns, Turn.Unobtrusive, Command.Unobtrusive]

/-- Two networks of one name. -/
def twins : Monitor :=
  createDisplay { cacheSize := 8 } {}
    { project := { Project.empty with networks :=
        [⟨"a", "", [contact "p" "0.0"], []⟩, ⟨"a", "", [contact "q" "1.0"], []⟩] } }

/-- The second of them displaces the first when it is attached, and is not polled any more when the
first is detached. -/
theorem twins_displaced :
    (twins.turns reactor [.command (.attach 0)]).registry.map (·.key) =
        [⟨.named "network:a", ⟨0, 1⟩⟩] ∧
      (twins.turns reactor [.command (.attach 0), .command (.attach 1)]).registry.map (·.key) =
        [⟨.named "network:a", ⟨1, 1⟩⟩] ∧
      (twins.turns reactor [.command (.attach 0), .command (.attach 1)]).display.attached =
        [(.named "network:a", 1)] ∧
      (twins.turns reactor
        [.command (.attach 0), .command (.attach 1), .command (.detach 0)]).registry = [] := by
  decide +kernel

end Monitor

end LadderMonitor
