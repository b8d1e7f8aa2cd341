import LadderMonitor.Proofs.Monitor.Refresh

namespace LadderMonitor

namespace Network

variable {p : Project} {memory : Bytes} {n shown : Network}

/-- The states of a network are those of an evaluation: they show where power flows, and each block
tells what its symbol's value is. -/
structure Evaluated (p : Project) (memory : Bytes) (n shown : Network) : Prop where
  bare : shown.bare = n.bare
  power : shown.ShowsPower
  blocks : ∀ (i : Nat) (b' : Block), shown.blocks[i]? = some b' →
    ∃ b s, n.blocks[i]? = some b ∧ b'.state = some s ∧ b.Tells p memory s

theorem evaluated_of_evaluate (heval : n.evaluate p memory = (shown, none)) :
    Evaluated p memory n shown where
  bare := (evaluate_shows_reachability heval).1
  power := showsPower_of_evaluate heval
  blocks := by
    intro i b' hb'
    obtain ⟨b, s, hblock, -, hstate, htells⟩ := active_iff_of_evaluate heval hb'
    exact ⟨b, s, hblock, hstate, htells⟩

/-- The states of a network are those that an evaluation leaves behind when it fails: up to the
first block that jams, everything is reset, and the blocks behind it are as they were. -/
def HalfReset (p : Project) (memory : Bytes) (n shown : Network) : Prop :=
  ∃ before b after fault, n.blocks = before ++ b :: after ∧
    (∀ b' ∈ before, ∀ fault, ¬ b'.Jams p memory fault) ∧ b.Jams p memory fault ∧
    shown = { n.resetWires with
      blocks := before.map (fun b' => (b'.reset p memory).1) ++ (b.reset p memory).1 :: after }

theorem halfReset_of_evaluate (hfails : (n.evaluate p memory).2 ≠ none) :
    HalfReset p memory n (n.evaluate p memory).1 := by
  obtain ⟨fault, hfault⟩ := Option.ne_none_iff_exists'.1 hfails
  obtain ⟨before, b, after, hsplit, hbefore, hjams, hshown⟩ := evaluate_halfway hfault
  exact ⟨before, b, after, fault, hsplit, hbefore, hjams, hshown⟩

end Network

namespace Monitor

variable {m : Monitor} {t last : Tick} {v : Move} {ports : Nat → Port}

/-- What a tick does to the displays of networks, whether their evaluations fail or not, from the
state in which it begins over the one in which its reads are answered to the one in which it is
over. -/
structure Flushes (t : Tick) (ports : Nat → Port) (m answered ended : Monitor) : Prop where
  /-- As long as there are answers to come, nothing is evaluated. -/
  waits : answered.evaluations = m.evaluations ∧ answered.workspace = m.workspace
  /-- From then on, nothing is written into the memory. -/
  cache : ended.cache = answered.cache
  /-- In the queue are the attached networks that were due before and those that the tick updates.
  -/
  queued : answered.queue.Nodup ∧ ∀ net, net ∈ answered.queue ↔ ∃ requester,
    (requester, net) ∈ m.display.attached ∧ (requester ∈ m.display.due ∨ Updates t ports requester)
  /-- A network can be evaluated exactly if none of its blocks jams. -/
  evaluable : ∀ net, answered.Evaluable net ↔ ∀ n, m.workspace.network? net = some n →
    ∀ b ∈ n.blocks, ∀ fault, ¬ b.Jams m.project ended.cache fault
  /-- The networks in the queue are evaluated once each, up to the first that cannot be. -/
  evaluations : ended.evaluations = (answered.attempted answered.queue).reverse ++ m.evaluations
  /-- So a network is evaluated exactly if all those before it in the queue can be. -/
  reached : ∀ before net after, answered.queue = before ++ net :: after →
    (net ∈ answered.attempted answered.queue ↔ ∀ other ∈ before, answered.Evaluable other)
  /-- A network that is evaluated and can be shows the evaluation. -/
  shown : ∀ net ∈ answered.attempted answered.queue, answered.Evaluable net →
    ∀ n, m.workspace.network? net = some n → ∃ shown,
      ended.workspace.network? net = some shown ∧ n.Evaluated m.project ended.cache shown
  /-- One that is evaluated and cannot be is left half reset. -/
  halfway : ∀ net ∈ answered.attempted answered.queue, ¬ answered.Evaluable net →
    ∃ n shown, m.workspace.network? net = some n ∧ ended.workspace.network? net = some shown ∧
      n.HalfReset m.project ended.cache shown
  /-- All other networks show what they showed. -/
  others : ∀ net, net ∉ answered.attempted answered.queue →
    ended.workspace.network? net = m.workspace.network? net
  /-- No network is due any more, evaluated or not. -/
  due : ended.display.due = []

theorem Answered.flushes {answered ended : Monitor} (h : Answered t last ports m answered)
    (htended : m.Tended)
    (hrefreshed : Refreshed (answered.attempted answered.queue).reverse
      { answered with display.due := [] } ended) :
    Flushes t ports m answered ended := by
  have hproject : answered.project = m.project := by rw [project, h.workspace, project]
  have hnetwork (net : Nat) : answered.workspace.network? net = m.workspace.network? net := by
    rw [h.workspace]
  have hcache : ended.cache = answered.cache := hrefreshed.cache
  have hevaluate (n : Network) : n.evaluate answered.project answered.cache =
      n.evaluate m.project ended.cache := by rw [hproject, hcache]
  have hattempted {net : Nat} (hmem : net ∈ answered.attempted answered.queue) {n : Network}
      (hnet : m.workspace.network? net = some n) :
      ended.workspace.network? net = some (n.evaluate m.project ended.cache).1 := by
    rw [← hevaluate]
    exact hrefreshed.network?_of_mem (List.mem_reverse.2 hmem) ((hnetwork net).trans hnet)
  exact {
    waits := ⟨h.evaluations, h.workspace⟩
    cache := hcache
    queued := by
      refine ⟨h.tended.nodup_queue, fun net => ?_⟩
      rw [h.tended.mem_queue_iff, h.attached]
      refine exists_congr fun requester => ?_
      rw [and_comm]
      exact and_congr_right fun hentry => h.due requester (htended.ofNetwork hentry)
    evaluable := by
      intro net
      rw [evaluable_iff, hnetwork, hproject, hcache]
    evaluations := hrefreshed.evaluations.trans (by rw [← h.evaluations]; rfl)
    reached := by
      intro before net after hqueue
      have hnodup := h.tended.nodup_queue
      rw [hqueue] at hnodup ⊢
      exact mem_attempted_iff hnodup
    shown := by
      intro net hmem hevaluable n hnet
      have hreturns := hevaluable n ((hnetwork net).trans hnet)
      rw [hevaluate] at hreturns
      exact ⟨_, hattempted hmem hnet, Network.evaluated_of_evaluate (Prod.ext rfl hreturns)⟩
    halfway := by
      intro net hmem hfails
      simp only [Evaluable, not_forall] at hfails
      obtain ⟨n, hnet, hfails⟩ := hfails
      rw [hnetwork] at hnet
      rw [hevaluate] at hfails
      exact ⟨n, _, hnet, hattempted hmem hnet, Network.halfReset_of_evaluate hfails⟩
    others := by
      intro net hout
      exact (hrefreshed.network?_of_not_mem (by simpa using hout)).trans (hnetwork net)
    due := hrefreshed.due }

/-- How far the failure of an evaluation reaches.

Let a tick begin while monitoring is active and stays so. The blocks of the attached networks may
have any symbols and remember anything, and networks may be due from before. Then, in whatever order
the reads are answered, and whichever of them fail, the attached networks that are due or for which
bytes have come are evaluated in the order of their requesters, up to the first that has a block
that jams: one whose symbol is to be resolved and fails, one that remembers a location without
bytes, or one whose value is refused for a reason that names an integer too long to be written out.
Up to there every network shows its evaluation, in which a block whose symbol resolves to nothing is
inactive and the others are evaluated as ever. That network is left half reset, and those behind it
are left out, and are not due any more. Networks without a name may come in any order among each
other. -/
theorem InService.tick_flushes (h : m.InService) (hmonitoring : m.Monitoring)
    (hgiven : m.Gives Command.Discreet) (hbegun : m.begun? v = some t) {order : List PendingRead}
    (horder : order.Perm t.pending) (hfits : ∀ read ∈ t.pending, Fits ports read) :
    ((m.move v).turns reactor (order.map (replyOf ports))).ended? (.conclude (t.minus order)) =
        some (t.minus order) ∧
      Flushes t ports m ((m.move v).turns reactor (order.map (replyOf ports)))
        (((m.move v).turns reactor (order.map (replyOf ports))).turn reactor
          (.conclude (t.minus order))) := by
  have hanswered := h.answered hmonitoring hgiven hbegun horder hfits
  generalize (m.move v).turns reactor (order.map (replyOf ports)) = answered at *
  refine ⟨hanswered.ended, ?_⟩
  rw [Monitor.turn, hanswered.ended]
  exact hanswered.flushes h.tended (hanswered.tended.attempted_endTick hanswered.listeners
    hanswered.gives hanswered.monitoring (t.minus order))

/-- The panel, with a contact in the left network whose symbol begins with a Kelvin sign. -/
def frozen : Monitor :=
  panel.turn reactor (.command (.edit (.addBlock 0 (contact "z" "\u212a10"))))

def frozenTick : Tick := (frozen.begun? .tick).get (by decide +kernel)

theorem inService_frozen : frozen.InService := by
  refine .turn ?_ _ trivial
  rw [panel]
  exact .turns (.createDisplay _ _ _) (by simp [Turn.Proper, Command.Proper])

theorem frozen_tick_flushes :
    Updates frozenTick intact (.named "network:left") ∧
      Updates frozenTick intact (.named "network:right") ∧
      Flushes frozenTick intact frozen
        ((frozen.move .tick).turns reactor (frozenTick.pending.reverse.map (replyOf intact)))
        (((frozen.move .tick).turns reactor (frozenTick.pending.reverse.map (replyOf intact))).turn
          reactor (.conclude (frozenTick.minus frozenTick.pending.reverse))) := by
  refine ⟨by decide +kernel, by decide +kernel, ?_⟩
  have hmonitoring : frozen.Monitoring := monitoring_of_none (by decide +kernel)
  have hgiven : frozen.Gives Command.Discreet := gives_of_length (by decide +kernel) _
  exact (InService.tick_flushes inService_frozen hmonitoring hgiven (Option.some_get _).symm
    (List.reverse_perm _) (by decide +kernel)).2

/-- The answers to the tick, the right network's first. -/
def frozenAnswered : Monitor :=
  (frozen.move .tick).turns reactor (frozenTick.pending.reverse.map (replyOf intact))

/-- The evaluation of the left network fails because of the Kelvin sign. The right one, for which
bytes have come in the same tick, is not evaluated, and is not due any more. -/
theorem kelvin_sign_ends_flush :
    frozen.InService ∧ frozen.Monitoring ∧ frozen.display.due = [] ∧
      (∀ read ∈ frozenTick.pending, Fits intact read) ∧
      (.named "network:right", 1) ∈ frozen.display.attached ∧
      Updates frozenTick intact (.named "network:right") ∧
      (frozenAnswered.workspace.network? 0).map
          (fun n => (n.evaluate frozenAnswered.project frozenAnswered.cache).2) =
        some (some (.letterWithoutRegion '\u212a')) ∧
      (frozenAnswered.turn reactor (.conclude (frozenTick.minus frozenTick.pending))).evaluations =
        0 :: frozen.evaluations ∧
      (frozenAnswered.turn reactor
        (.conclude (frozenTick.minus frozenTick.pending))).display.due = [] := by
  refine ⟨inService_frozen, monitoring_of_none (by decide +kernel), by decide +kernel,
    by decide +kernel, by decide +kernel, by decide +kernel, by decide +kernel, ?_⟩
  have hlisteners : frozenAnswered.listeners = [.display] := by decide +kernel
  have hsorted : frozenAnswered.display.due.Pairwise
      fun a b => frozenAnswered.textOf a ≤ frozenAnswered.textOf b := by decide +kernel
  have hended : frozenAnswered.ended? (.conclude (frozenTick.minus frozenTick.pending)) =
      some (frozenTick.minus frozenTick.pending) := by decide +kernel
  have hturn : frozenAnswered.turn reactor (.conclude (frozenTick.minus frozenTick.pending)) =
      frozenAnswered.endTick reactor (frozenTick.minus frozenTick.pending) := by rw [turn, hended]
  rw [hturn, endTick, tellAll_of_sorted hlisteners hsorted]
  decide +kernel

end Monitor

end LadderMonitor
