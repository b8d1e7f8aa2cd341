import LadderMonitor.Proofs.Monitor.Flush
import LadderMonitor.Proofs.Monitor.Marking
import LadderMonitor.Proofs.Monitor.TickDelivery

namespace LadderMonitor

namespace Monitor

variable {m m' m₁ : Monitor} {t : Tick} {v : Move} {others : List Tick} {ports : Nat → Port}
  {done : List PendingRead} {read : PendingRead}

/-- A tick begins beside the poll tasks, or in one that wakes up. -/
theorem turn_of_begun? (hbegun : m.begun? v = some t) :
    ∃ turn : Turn, turn.Proper ∧ m.turn reactor turn = m.move v := by
  cases v with
  | tick => exact ⟨.tick, trivial, rfl⟩
  | wake id => exact ⟨.wake id, trivial, rfl⟩
  | _ => cases hbegun

theorem begins_of_begun? (hbegun : m.begun? v = some t) :
    ∃ connected active poller owner,
      Begins owner { m with connected, active, poller } (.ok (some t)) (m.move v) := by
  cases v with
  | tick =>
    have hbegins := m.beginTick_begins none
    rw [begun?] at hbegun
    rw [move]
    split at hbegun
    · rename_i tick m' heq
      obtain rfl : tick = some t := hbegun
      rw [heq] at hbegins ⊢
      exact ⟨_, _, _, _, hbegins⟩
    · cases hbegun
  | wake id =>
    rw [begun?] at hbegun
    split at hbegun
    · rename_i hasleep
      have hwakes := m.wakeUp_wakes id
      rw [hbegun] at hwakes
      rw [move, if_pos hasleep]
      generalize (m.wakeUp id).1 = m' at hwakes ⊢
      cases hwakes with
      | entered _ _ _ _ hbegins => exact ⟨_, _, _, _, hbegins⟩
    · cases hbegun
  | _ => cases hbegun

/-- A tick that begins leaves the displays alone. -/
theorem discreetly_of_begun? (hbegun : m.begun? v = some t) :
    (m.move v).display = m.display ∧ (m.move v).evaluations = m.evaluations ∧
      (m.Monitoring → (m.move v).Monitoring) := by
  have hspared := m.spared_move v
  refine ⟨hspared.display ?_, ?_, fun hmonitoring => ?_⟩
  · rintro _ rfl
    cases hbegun
  · refine hspared.evaluations ?_
    rintro _ rfl
    cases hbegun
  · refine hmonitoring.move ?_
    rintro _ rfl
    cases hbegun

/-- A tick that begins is the latest of those in flight. -/
theorem Sound.inFlight_of_begun? (h : m.Sound) (hbegun : m.begun? v = some t) :
    InFlight (m.move v) m.ticks t := by
  obtain ⟨connected, active, poller, owner, hbegins⟩ := begins_of_begun? hbegun
  have hsound : Sound { m with connected, active, poller } :=
    h.of_eq rfl rfl rfl (Nat.le_refl _)
  exact hsound.inFlight hbegins

/-- Whether an answer is of the size that was asked for, if there is one. -/
def Fits (ports : Nat → Port) (read : PendingRead) : Prop :=
  ∀ data, answerOf ports read = .ok data → (data.size : Int) = read.batch.size

instance (ports : Nat → Port) (read : PendingRead) : Decidable (Fits ports read) :=
  match h : answerOf ports read with
  | .ok data =>
    decidable_of_iff ((data.size : Int) = read.batch.size) (by simp [Fits, h])
  | .error _ => isTrue fun _ hdata => by rw [h] at hdata; cases hdata

/-- Whether a read brings bytes for the display of a requester. -/
def Brings (ports : Nat → Port) (read : PendingRead) (requester : Requester) : Prop :=
  Succeeds ports read ∧ ∃ r ∈ read.batch.items, r.Displays requester

/-- The turn in which a read is answered. -/
def replyOf (ports : Nat → Port) (read : PendingRead) : Turn :=
  .reply read.ticket (answerOf ports read)

section Answers

variable (hreachable : m₁.Reachable) (hrecorded : m₁.Recorded) (htended : m₁.Tended)
  (hgiven : m₁.Gives Command.Discreet) (hflight : InFlight m₁ others t)

include hreachable hrecorded htended hgiven hflight

/-- Bytes that are received mark the networks for whose display they are. -/
theorem Serving.receive (h : Serving m₁ m) (hread : read ∈ t.pending) (hfits : Fits ports read) :
    Marks (Brings ports read) m (m.receive reactor read.batch (answerOf ports read)) ∧
      Serving m₁ (m.receive reactor read.batch (answerOf ports read)) := by
  have hbatch := hflight.batches read hread
  cases hanswer : answerOf ports read with
  | error fault =>
    have hnothing (requester : Requester) : ¬ Brings ports read requester := by
      simp [Brings, Succeeds, hanswer, Except.isOk, Except.toBool]
    have hnoted := (m.discreetly_move
      (v := .note (.reported (.readFailed read.batch.size read.batch.start fault))) rfl)
    have htends := overlooks_tends.reported m (.readFailed read.batch.size read.batch.start fault)
    refine ⟨hnoted.marks.congr fun requester _ => by simp [hnothing], ?_⟩
    exact h.step hnoted.gently.runs htends hnoted.marks
  | ok data =>
    have hbrings (requester : Requester) : Brings ports read requester ↔
        ∃ r ∈ read.batch.items, r.Displays requester := by
      simp [Brings, Succeeds, hanswer, Except.isOk, Except.toBool]
    have hstored : Marks (fun _ => False) m (m.store read.batch.start data) :=
      .of_eq rfl rfl rfl rfl rfl
    have hserving : Serving m₁ (m.store read.batch.start data) :=
      h.step (.single m (.store read.batch.start data) rfl)
        (overlooksLoop_tends.move m (.store read.batch.start data) rfl) hstored
    obtain ⟨hmarks, hserved⟩ := Marks.foldl (fun r hr _ h =>
      h.serve hreachable hrecorded htended hgiven (Registry.covers_of_mem_batches hbatch) hr
        (Registry.mem_batches_items.1 ⟨read.batch, hbatch, hr⟩) (hfits data hanswer)) hserving
    exact ⟨(hstored.trans hmarks).congr fun requester _ => by rw [false_or, hbrings], hserved⟩

/-- An answer marks the networks for whose display it brings bytes, and evaluates none. -/
theorem Serving.reply (h : Serving m₁ m) (hticks : m.ticks = others ++ [t.minus done])
    (hread : read ∈ t.pending) (hleft : read.ticket ∉ done.map (·.ticket))
    (hfits : Fits ports read) :
    Marks (Brings ports read) m (m.turn reactor (replyOf ports read)) ∧
      Serving m₁ (m.turn reactor (replyOf ports read)) ∧
      (m.turn reactor (replyOf ports read)).ticks = others ++ [t.minus (done ++ [read])] := by
  have hhandled : m.handled? (replyOf ports read) = some read := by
    rw [replyOf, handled?, hflight.find?_heldReads hread hleft hticks, Option.map_some]
  have hturn : m.turn reactor (replyOf ports read) =
      m.answer reactor read (answerOf ports read) := by
    rw [replyOf] at hhandled ⊢
    rw [turn, hhandled]
  have hstruck : (m.strike read.ticket).ticks = others ++ [t.minus (done ++ [read])] := by
    rw [← hflight.map_without done hread, ← hticks]
    rfl
  have hquiet : Marks (fun _ => False) m (m.strike read.ticket) := .of_eq rfl rfl rfl rfl rfl
  have hserving : Serving m₁ (m.strike read.ticket) :=
    h.step (.single m (.strike read.ticket) rfl)
      (overlooksLoop_tends.move m (.strike read.ticket) rfl) hquiet
  obtain ⟨hmarks, hreceived⟩ :=
    hserving.receive hreachable hrecorded htended hgiven hflight hread hfits
  rw [hturn, inner_reactor.ticks_answer]
  exact ⟨(hquiet.trans hmarks).congr fun _ _ => by rw [false_or], hreceived, hstruck⟩

/-- The answers to reads, in any order, mark the networks for whose display they bring bytes. -/
theorem Serving.replies (h : Serving m₁ m) (hticks : m.ticks = others ++ [t.minus done])
    {left : List PendingRead} (horder : (done ++ left).Perm t.pending)
    (hfits : ∀ read ∈ left, Fits ports read) :
    Marks (fun requester => ∃ read ∈ left, Brings ports read requester) m
        (m.turns reactor (left.map (replyOf ports))) ∧
      Serving m₁ (m.turns reactor (left.map (replyOf ports))) ∧
      (m.turns reactor (left.map (replyOf ports))).ticks = others ++ [t.minus (done ++ left)] := by
  induction left generalizing done m with
  | nil =>
    rw [List.append_nil]
    exact ⟨(Marks.refl m).congr fun _ _ => by simp, h, hticks⟩
  | cons read rest ih =>
    obtain ⟨hfirst, hrest⟩ := List.forall_mem_cons.1 hfits
    have htickets : ((done ++ read :: rest).map (·.ticket)).Nodup :=
      (horder.map _).nodup_iff.2 hflight.tickets
    have hleft : read.ticket ∉ done.map (·.ticket) := by
      rw [List.map_append, List.nodup_append] at htickets
      exact fun hdone => htickets.2.2 _ hdone _ (by simp) rfl
    have hread : read ∈ t.pending := horder.subset (by simp)
    have hsplit : done ++ read :: rest = (done ++ [read]) ++ rest := by simp
    rw [hsplit] at horder ⊢
    obtain ⟨hmarks, hserving, hanswered⟩ :=
      h.reply hreachable hrecorded htended hgiven hflight hticks hread hleft hfirst
    obtain ⟨hmarks', hserving', hticks'⟩ := ih hserving hanswered horder hrest
    exact ⟨(hmarks.trans hmarks').congr fun _ _ => by simp, hserving', hticks'⟩

end Answers

theorem Refreshed.endTick {nets : List Nat} (h : Refreshed nets m' (m.tellAll reactor))
    (tick : Tick) : Refreshed nets m' (m.endTick reactor tick) := by
  obtain ⟨_, hclosed⟩ := (m.tellAll reactor).closeTick_eq tick
  rw [Monitor.endTick, hclosed]
  exact { h with }

/-- When a tick ends, the networks that are due are evaluated up to the first that fails, and then
none is due. -/
theorem Tended.attempted_endTick (h : m.Tended) (hlisteners : m.listeners.Nodup)
    (hgiven : m.Gives Command.Discreet) (hmonitoring : m.Monitoring) (tick : Tick) :
    Refreshed (m.attempted m.queue).reverse { m with display.due := [] }
      (m.endTick reactor tick) :=
  (h.attempted_tellAll hlisteners hgiven hmonitoring).endTick tick

/-- When a tick ends, each of the networks that are due is evaluated once, and then none is due. -/
theorem Tended.refreshed_endTick (h : m.Tended) (hlisteners : m.listeners.Nodup)
    (hgiven : m.Gives Command.Discreet) (hmonitoring : m.Monitoring)
    (hevaluable : ∀ entry ∈ m.display.attached, entry.1 ∈ m.display.due → m.Evaluable entry.2)
    (tick : Tick) :
    ∃ nets : List Nat, nets.Nodup ∧
      (∀ net, net ∈ nets ↔ ∃ requester ∈ m.display.due, (requester, net) ∈ m.display.attached) ∧
      Refreshed nets { m with display.due := [] } (m.endTick reactor tick) := by
  obtain ⟨nets, hnodup, hnets, hrefreshed⟩ :=
    h.refreshed_tellAll hlisteners hgiven hmonitoring hevaluable
  exact ⟨nets, hnodup, hnets, hrefreshed.endTick tick⟩

/-- Whether a tick brings bytes for the display of a requester: a range that is registered for it
lies in a batch whose read succeeds. -/
def Updates (t : Tick) (ports : Nat → Port) (requester : Requester) : Prop :=
  ∃ read ∈ t.pending, Brings ports read requester

instance (t : Tick) (ports : Nat → Port) (requester : Requester) :
    Decidable (Updates t ports requester) :=
  inferInstanceAs (Decidable (∃ read ∈ t.pending,
    (answerOf ports read).isOk ∧ ∃ r ∈ read.batch.items, r.Displays requester))

/-- What the answers to the reads of a tick have done, from the state in which it begins: networks
are due for which bytes have come, none is evaluated, and the tick can end. -/
structure Answered (t last : Tick) (ports : Nat → Port) (m answered : Monitor) : Prop where
  ended : answered.ended? (.conclude last) = some last
  tended : answered.Tended
  listeners : answered.listeners.Nodup
  gives : answered.Gives Command.Discreet
  monitoring : answered.Monitoring
  evaluations : answered.evaluations = m.evaluations
  workspace : answered.workspace = m.workspace
  attached : answered.display.attached = m.display.attached
  due : ∀ requester, requester.OfNetwork →
    (requester ∈ answered.display.due ↔ requester ∈ m.display.due ∨ Updates t ports requester)

theorem InService.answered (h : m.InService) (hmonitoring : m.Monitoring)
    (hgiven : m.Gives Command.Discreet) (hbegun : m.begun? v = some t) {order : List PendingRead}
    (horder : order.Perm t.pending) (hfits : ∀ read ∈ t.pending, Fits ports read) :
    Answered t (t.minus order) ports m
      ((m.move v).turns reactor (order.map (replyOf ports))) := by
  have hbegan : (m.move v).InService := by
    obtain ⟨turn, hproper, heq⟩ := turn_of_begun? hbegun
    rw [← heq]
    exact h.turn turn hproper
  obtain ⟨hdisplay, hevaluations, hkept⟩ := discreetly_of_begun? hbegun
  have hreactions := (m.spared_move v).reactions
  have hflight := h.reachable.sound.inFlight_of_begun? hbegun
  generalize m.move v = m₁ at *
  have hgiven₁ : m₁.Gives Command.Discreet := hgiven.of_eq hreactions
  have hpending : m₁.ticks = m.ticks ++ [t.minus []] := by rw [Tick.minus_nil, hflight.ticks]
  obtain ⟨hmarks, hserving, hticks⟩ :=
    Serving.replies hbegan.reachable hbegan.recorded hbegan.tended hgiven₁ hflight
      ⟨.refl m₁, hbegan.tended, fun _ _ => .rfl⟩ hpending horder
      fun read hread => hfits read (horder.subset hread)
  refine ⟨?_, hserving.tended, (hbegan.reachable.of_runs hserving.runs).sound.listeners,
    hserving.gives hgiven₁, hmarks.monitoring (hkept hmonitoring),
    hmarks.evaluations.trans hevaluations, ?_, ?_, fun requester hnetwork => ?_⟩
  · refine ended?_eq_some_iff.2 ⟨rfl, by simp [hticks], ?_⟩
    exact List.isEmpty_iff.1 ((hflight.pending_minus (by rwa [List.append_nil])).2 rfl)
  · rw [hmarks.workspace, workspace, hdisplay, workspace]
  · rw [hmarks.attached, hdisplay]
  · rw [hmarks.due requester hnetwork, hdisplay]
    simp only [Updates, horder.mem_iff]

/-- What a tick does to the displays of networks, from the state in which it begins over the one in
which its reads are answered to the one in which it is over. -/
structure Refreshes (t : Tick) (ports : Nat → Port) (m answered ended : Monitor) : Prop where
  /-- As long as there are answers to come, nothing is evaluated. -/
  waits : answered.evaluations = m.evaluations ∧ answered.workspace = m.workspace
  /-- From then on, nothing is written into the memory. -/
  cache : ended.cache = answered.cache
  /-- The networks that are attached and updated are evaluated, each once. -/
  evaluations : ∃ nets : List Nat, ended.evaluations = nets ++ m.evaluations ∧ nets.Nodup ∧
    ∀ net, net ∈ nets ↔
      ∃ requester, (requester, net) ∈ m.display.attached ∧ Updates t ports requester
  /-- They show what an evaluation against the memory after the tick shows. -/
  shown : ∀ entry ∈ m.display.attached, Updates t ports entry.1 →
    ∀ n, m.workspace.network? entry.2 = some n → ∃ shown,
      ended.workspace.network? entry.2 = some shown ∧
      n.evaluate m.project ended.cache = (shown, none) ∧
      shown.evaluate ended.project ended.cache = (shown, none)
  /-- All other networks show what they showed. -/
  others : ∀ net, (∀ requester, (requester, net) ∈ m.display.attached →
    ¬ Updates t ports requester) → ended.workspace.network? net = m.workspace.network? net

/-- When the networks that a tick updates are evaluated after its answers, it refreshes them. -/
theorem Refreshed.refreshes {answered ended : Monitor} {nets : List Nat}
    (h : Refreshed nets { answered with display.due := [] } ended)
    (hworkspace : answered.workspace = m.workspace)
    (hevaluations : answered.evaluations = m.evaluations)
    (hevaluable : ∀ entry ∈ m.display.attached, answered.Evaluable entry.2) (hnodup : nets.Nodup)
    (hnets : ∀ net, net ∈ nets ↔
      ∃ requester, (requester, net) ∈ m.display.attached ∧ Updates t ports requester) :
    Refreshes t ports m answered ended where
  waits := ⟨hevaluations, hworkspace⟩
  cache := h.cache
  evaluations := ⟨nets, h.evaluations.trans (congrArg (nets ++ ·) hevaluations), hnodup, hnets⟩
  shown := by
    intro entry hentry hupdates n hnet
    have hmem : entry.2 ∈ nets := (hnets entry.2).2 ⟨entry.1, hentry, hupdates⟩
    have hbefore : answered.workspace.network? entry.2 = some n := by rw [hworkspace, hnet]
    have hproject : answered.project = m.project := by rw [project, hworkspace, project]
    obtain ⟨shown, hshown, heval⟩ := h.shows hmem (hevaluable entry hentry) hbefore
    refine ⟨shown, hshown, ?_, ?_⟩
    · rw [h.cache, ← hproject]
      exact heval
    · rw [h.evaluate_eq]
      exact Network.evaluate_again heval
  others := by
    intro net hnone
    have hout : net ∉ nets := fun hmem => by
      obtain ⟨requester, hentry, hupdates⟩ := (hnets net).1 hmem
      exact hnone requester hentry hupdates
    exact (h.network?_of_not_mem hout).trans (congrArg (·.network? net) hworkspace)

/-- After every tick the networks that it updates show the memory.

Let a tick begin while monitoring is active and stays so, let the symbols of the attached networks
be such that they can be resolved, and let no network be due. Then, in whatever order the reads are
answered, and whichever of them fail, each attached network for which bytes have come is evaluated
exactly once, after the last of them has been written into the memory, and no other network is.
Networks with a block at a place that has no bytes or is too long to be written out are excluded:
their evaluation may fail, and then those of the networks that are due behind them are left out. -/
theorem InService.tick_refreshes (h : m.InService) (hmonitoring : m.Monitoring)
    (hgiven : m.Gives Command.Discreet)
    (hresolves : ∀ entry ∈ m.display.attached, ∀ fault, ¬ m.workspace.Baffles entry.2 fault)
    (hplaced : ∀ entry ∈ m.display.attached, m.workspace.Placed entry.2)
    (hdue : ∀ entry ∈ m.display.attached, entry.1 ∉ m.display.due)
    (hbegun : m.begun? v = some t) {order : List PendingRead} (horder : order.Perm t.pending)
    (hfits : ∀ read ∈ t.pending, Fits ports read) :
    ((m.move v).turns reactor (order.map (replyOf ports))).ended? (.conclude (t.minus order)) =
        some (t.minus order) ∧
      Refreshes t ports m ((m.move v).turns reactor (order.map (replyOf ports)))
        (((m.move v).turns reactor (order.map (replyOf ports))).turn reactor
          (.conclude (t.minus order))) := by
  have hanswered := h.answered hmonitoring hgiven hbegun horder hfits
  generalize (m.move v).turns reactor (order.map (replyOf ports)) = answered at *
  have hevaluable : ∀ entry ∈ m.display.attached, answered.Evaluable entry.2 := fun entry hentry =>
    evaluable_of_resolves (by rw [hanswered.workspace]; exact hresolves entry hentry)
      (by rw [hanswered.workspace]; exact hplaced entry hentry)
  obtain ⟨nets, hnodup, hnets, hrefreshed⟩ :=
    hanswered.tended.refreshed_endTick hanswered.listeners hanswered.gives hanswered.monitoring
      (fun entry hentry _ => hevaluable entry (hanswered.attached ▸ hentry)) (t.minus order)
  refine ⟨hanswered.ended, ?_⟩
  rw [Monitor.turn, hanswered.ended]
  refine hrefreshed.refreshes hanswered.workspace hanswered.evaluations hevaluable hnodup
    fun net => ?_
  rw [hnets, hanswered.attached]
  -- Nothing was due before, so that what is due now is what bytes have come for.
  refine exists_congr fun requester => ?_
  rw [and_comm]
  refine and_congr_right fun hentry => ?_
  rw [hanswered.due requester (h.tended.ofNetwork hentry)]
  simp [hdue _ hentry]

/-- A contact on the power rail. -/
def contact (id symbol : String) : Block := ⟨id, 0, 0, .contact, false, .normal, symbol, none⟩

/-- A panel whose two networks are attached, far enough apart for a read each. -/
def panel : Monitor :=
  (createDisplay { gapThreshold := 1, cacheSize := 8 } {}
    { project := { Project.empty with
        networks :=
          [⟨"left", "", [contact "p" "0.0"], []⟩, ⟨"right", "", [contact "q" "4.0"], []⟩] }
    }).turns reactor [.command (.attach 0), .command (.attach 1)]

/-- A tick that the panel begins. -/
def panelTick : Tick := (panel.begun? .tick).get (by decide +kernel)

/-- A line over which the first byte can be read, and nothing else. -/
def frayed (_ : Nat) : Port := fun start _ =>
  if start = 0 then .ok #[1] else .error (.readFailure start)

theorem panel_tick_refreshes :
    Updates panelTick frayed (.named "network:left") ∧
      ¬ Updates panelTick frayed (.named "network:right") ∧
      Refreshes panelTick frayed panel
        ((panel.move .tick).turns reactor (panelTick.pending.reverse.map (replyOf frayed)))
        (((panel.move .tick).turns reactor (panelTick.pending.reverse.map (replyOf frayed))).turn
          reactor (.conclude (panelTick.minus panelTick.pending.reverse))) := by
  refine ⟨by decide +kernel, by decide +kernel, ?_⟩
  have hservice : panel.InService := by
    rw [panel]
    exact .turns (.createDisplay _ _ _) (by simp [Turn.Proper, Command.Proper])
  have hmonitoring : panel.Monitoring := monitoring_of_none (by decide +kernel)
  have hgiven : panel.Gives Command.Discreet := gives_of_length (by decide +kernel) _
  have hresolved : ∀ entry ∈ panel.display.attached,
      ∀ b ∈ ((panel.workspace.network? entry.2).map (·.blocks)).getD [],
        (panel.project.resolveText b.symbol).isOk := by decide +kernel
  refine (InService.tick_refreshes hservice hmonitoring hgiven
    (fun entry hentry => Block.not_baffle (hresolved entry hentry)) ?_ ?_ (Option.some_get _).symm
    (List.reverse_perm _) ?_).2
  · decide +kernel
  · decide +kernel
  · decide +kernel

/-- The panel, with a contact in the left network whose symbol lies too far off. -/
def jammed : Monitor :=
  panel.turn reactor (.command (.edit (.addBlock 0 (contact "z" Project.farMarker))))

theorem workspace_addBlock (m : Monitor) (net : Nat) (b : Block) :
    (m.turn reactor (.command (.edit (.addBlock net b)))).workspace =
      m.workspace.modify net fun n => { n with blocks := n.blocks ++ [b] } := rfl

theorem network?_jammed (net : Nat) : jammed.workspace.network? net =
    (panel.workspace.network? net).map fun n =>
      if 0 = net then { n with blocks := n.blocks ++ [contact "z" Project.farMarker] } else n := by
  rw [jammed, workspace_addBlock, Workspace.network?_modify]

theorem inService_jammed : jammed.InService := by
  refine .turn ?_ _ trivial
  rw [panel]
  exact .turns (.createDisplay _ _ _) (by simp [Turn.Proper, Command.Proper])

def jammedTick : Tick := (jammed.begun? .tick).get (by decide +kernel)

/-- A line over which every byte can be read. -/
def intact (_ : Nat) : Port := fun _ _ => .ok #[1]

/-- The answers to the tick, the right network's first. -/
def jammedAnswered : Monitor :=
  (jammed.move .tick).turns reactor (jammedTick.pending.reverse.map (replyOf intact))

/-- The evaluation of the left network fails, and then the right one is not evaluated, although its
bytes have come. -/
theorem right_left_out :
    (∀ net < 2, ∀ b ∈ ((jammed.workspace.network? net).map (·.blocks)).getD [],
        (jammed.project.resolveText b.symbol).isOk) ∧
      jammed.display.due = [] ∧ (∀ read ∈ jammedTick.pending, Fits intact read) ∧
      (.named "network:right", 1) ∈ jammed.display.attached ∧
      Updates jammedTick intact (.named "network:right") ∧
      (jammedAnswered.turn reactor
          (.conclude (jammedTick.minus jammedTick.pending.reverse))).evaluations =
        0 :: jammed.evaluations := by
  have hfits : ∀ read ∈ jammedTick.pending, Fits intact read := by decide +kernel
  have hanswered : Answered jammedTick (jammedTick.minus jammedTick.pending.reverse) intact jammed
      jammedAnswered :=
    inService_jammed.answered (monitoring_of_none (by decide +kernel))
      (gives_of_length (by decide +kernel) _) (Option.some_get _).symm (List.reverse_perm _) hfits
  have hmemory : ¬ IsLong jammedAnswered.cache.size := by
    have hsize : jammedAnswered.cache.size = 8 := by decide +kernel
    rw [hsize]
    exact not_isLong_of_small (by decide) (by decide)
  have hsymbols : jammed.project.symbols = [] := by decide +kernel
  have hbase : 0 < jammed.project.offsets.base .marker := by decide +kernel
  obtain ⟨hresolves, fault, hjams⟩ := Block.jams_of_farMarker (p := jammed.project)
    (b := contact "z" Project.farMarker) rfl rfl (by simp [hsymbols]) hbase hmemory
  refine ⟨?_, by decide +kernel, hfits, by decide +kernel, by decide +kernel, ?_⟩
  · have hpanel : ∀ net < 2, ∀ b ∈ ((panel.workspace.network? net).map (·.blocks)).getD [],
        (jammed.project.resolveText b.symbol).isOk := by decide +kernel
    intro net hnet b hb
    rw [network?_jammed, Option.map_map] at hb
    cases hn : panel.workspace.network? net with
    | none => simp [hn] at hb
    | some n =>
      have hold := hpanel net hnet b
      rw [hn] at hb hold
      obtain hb | rfl : b ∈ n.blocks ∨ b = contact "z" Project.farMarker := by
        by_cases hzero : 0 = net
        · simpa [hzero] using hb
        · exact .inl (by simpa [hzero] using hb)
      · exact hold hb
      · exact hresolves
  · have hfails : ¬ jammedAnswered.Evaluable 0 := by
      obtain ⟨n, hn⟩ := Option.isSome_iff_exists.1
        (show (panel.workspace.network? 0).isSome by decide +kernel)
      have hnet : jammedAnswered.workspace.network? 0 = some
          { n with blocks := n.blocks ++ [contact "z" Project.farMarker] } := by
        rw [hanswered.workspace, network?_jammed, hn]
        rfl
      have hproject : jammedAnswered.project = jammed.project :=
        congrArg Workspace.project hanswered.workspace
      rw [← hproject] at hjams
      exact not_evaluable_of_jams hnet (List.mem_append_right _ (List.mem_singleton_self _)) hjams
    have hqueue : jammedAnswered.queue = [0, 1] := by
      have hsorted : jammedAnswered.display.due.Pairwise
          fun a b => jammedAnswered.textOf a ≤ jammedAnswered.textOf b := by decide +kernel
      rw [queue, dueInOrder_of_sorted hsorted]
      decide +kernel
    have hended := hanswered.tended.attempted_endTick hanswered.listeners hanswered.gives
      hanswered.monitoring (jammedTick.minus jammedTick.pending.reverse)
    rw [hqueue, attempted, if_neg hfails] at hended
    generalize jammedAnswered = answered at *
    rw [turn, hanswered.ended]
    exact hended.evaluations.trans (congrArg (0 :: ·) hanswered.evaluations)

end Monitor

end LadderMonitor
