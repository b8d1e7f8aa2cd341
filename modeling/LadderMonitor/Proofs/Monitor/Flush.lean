import LadderMonitor.Proofs.Ladder.History
import LadderMonitor.Proofs.Monitor.Discretion
import LadderMonitor.Proofs.Monitor.Failure
import LadderMonitor.Proofs.Monitor.Tended

namespace LadderMonitor

namespace Monitor

variable {m m' m'' : Monitor} {net : Nat} {nets nets' : List Nat} {requester : Requester}

/-- Whether a network, if there is one of this number, can be evaluated. -/
def Evaluable (m : Monitor) (net : Nat) : Prop :=
  ∀ n, m.workspace.network? net = some n → (n.evaluate m.project m.cache).2 = none

instance (m : Monitor) (net : Nat) : Decidable (m.Evaluable net) :=
  inferInstanceAs (Decidable (∀ n ∈ m.workspace.network? net,
    (n.evaluate m.project m.cache).2 = none))

/-- A network can be evaluated exactly if none of its blocks jams. -/
theorem evaluable_iff : m.Evaluable net ↔ ∀ n, m.workspace.network? net = some n →
    ∀ b ∈ n.blocks, ∀ fault, ¬ b.Jams m.project m.cache fault := by
  simp only [Evaluable, Network.evaluate_returns_iff]

/-- Networks whose symbols can be resolved, and whose blocks lie at plain places, can be evaluated.
-/
theorem evaluable_of_resolves (hresolves : ∀ fault, ¬ m.workspace.Baffles net fault)
    (hplaced : m.workspace.Placed net) : m.Evaluable net := by
  rw [evaluable_iff]
  intro n hnet b hb fault hjams
  refine hresolves fault ?_
  rw [Workspace.Baffles, hnet]
  exact ⟨b, hb, hjams.unresolved_of_placed (hplaced n hnet b hb)⟩

theorem not_evaluable_of_jams {n : Network} {b : Block} {fault : Fault}
    (hnet : m.workspace.network? net = some n) (hb : b ∈ n.blocks)
    (hjams : b.Jams m.project m.cache fault) : ¬ m.Evaluable net :=
  fun hevaluable => evaluable_iff.1 hevaluable n hnet b hb fault hjams

/-- The networks of a list up to the first that cannot be evaluated, this one included. -/
def attempted (m : Monitor) : List Nat → List Nat
  | [] => []
  | net :: rest => if m.Evaluable net then net :: attempted m rest else [net]

theorem attempted_eq_self (h : ∀ net ∈ nets, m.Evaluable net) : m.attempted nets = nets := by
  induction nets with
  | nil => rfl
  | cons net rest ih =>
    obtain ⟨hfirst, hrest⟩ := List.forall_mem_cons.1 h
    rw [attempted, if_pos hfirst, ih hrest]

theorem attempted_congr (h : ∀ net ∈ nets, m'.Evaluable net ↔ m.Evaluable net) :
    m'.attempted nets = m.attempted nets := by
  induction nets with
  | nil => rfl
  | cons net rest ih =>
    obtain ⟨hfirst, hrest⟩ := List.forall_mem_cons.1 h
    simp only [attempted, hfirst, ih hrest]

theorem attempted_sublist (m : Monitor) (nets : List Nat) : (m.attempted nets).Sublist nets := by
  induction nets with
  | nil => exact .slnil
  | cons net rest ih =>
    rw [attempted]
    split
    · exact ih.cons_cons net
    · exact (List.nil_sublist rest).cons_cons net

/-- A network is reached exactly if all those before it can be evaluated. -/
theorem mem_attempted_iff {before after : List Nat} (hnodup : (before ++ net :: after).Nodup) :
    net ∈ m.attempted (before ++ net :: after) ↔ ∀ other ∈ before, m.Evaluable other := by
  induction before with
  | nil =>
    rw [List.nil_append, attempted]
    split <;> simp
  | cons first rest ih =>
    rw [List.cons_append, List.nodup_cons, List.mem_append, not_or] at hnodup
    obtain ⟨⟨-, hnew⟩, hnodup⟩ := hnodup
    have hne : net ≠ first := fun heq => hnew (heq ▸ List.mem_cons_self)
    rw [List.cons_append, attempted, List.forall_mem_cons]
    split
    · rename_i hfirst
      simp [hne, hfirst, ih hnodup]
    · rename_i hfirst
      simp [hne, hfirst]

/-- Networks are evaluated once each, the latest of them first in the list, and otherwise what
displays rest on is as it was. -/
structure Refreshed (nets : List Nat) (m m' : Monitor) : Prop where
  evaluations : m'.evaluations = nets ++ m.evaluations
  networks : ∀ net, m'.workspace.network? net = (m.workspace.network? net).map fun n =>
    if net ∈ nets then (n.evaluate m.project m.cache).1 else n
  symbols : m'.project.symbols = m.project.symbols
  offsets : m'.project.offsets = m.project.offsets
  cache : m'.cache = m.cache
  attached : m'.display.attached = m.display.attached
  due : m'.display.due = m.display.due
  reactions : m'.reactions = m.reactions
  registered : ∀ r : Registration, r.key.requester.OfNetwork → (r ∈ m'.registry ↔ r ∈ m.registry)
  monitoring : m.Monitoring → m'.Monitoring

namespace Refreshed

theorem refl (m : Monitor) : Refreshed [] m m :=
  ⟨rfl, fun net => by simp, rfl, rfl, rfl, rfl, rfl, rfl, fun _ _ => .rfl, id⟩

/-- Other networks are evaluated as if nothing had happened. -/
theorem evaluate_eq (h : Refreshed nets m m') (n : Network) :
    n.evaluate m'.project m'.cache = n.evaluate m.project m.cache := by
  rw [Network.evaluate_congr h.symbols h.offsets, h.cache]

/-- A network that is evaluated shows what its evaluation leaves behind. -/
theorem network?_of_mem (h : Refreshed nets m m') (hmem : net ∈ nets) {n : Network}
    (hnet : m.workspace.network? net = some n) :
    m'.workspace.network? net = some (n.evaluate m.project m.cache).1 := by
  rw [h.networks, hnet, Option.map_some, if_pos hmem]

theorem network?_of_not_mem (h : Refreshed nets m m') (hout : net ∉ nets) :
    m'.workspace.network? net = m.workspace.network? net := by
  rw [h.networks]
  simp only [if_neg hout]
  exact Option.map_id'

/-- A network that is evaluated, and can be, shows the evaluation. -/
theorem shows (h : Refreshed nets m m') (hmem : net ∈ nets) (hevaluable : m.Evaluable net)
    {n : Network} (hnet : m.workspace.network? net = some n) :
    ∃ shown, m'.workspace.network? net = some shown ∧
      n.evaluate m.project m.cache = (shown, none) :=
  ⟨_, h.network?_of_mem hmem hnet, Prod.ext rfl (hevaluable n hnet)⟩

theorem evaluable_iff (h : Refreshed nets m m') (hother : net ∉ nets) :
    m'.Evaluable net ↔ m.Evaluable net := by
  simp only [Evaluable, h.network?_of_not_mem hother, h.evaluate_eq]

theorem trans (h : Refreshed nets m m') (h' : Refreshed nets' m' m'')
    (hapart : ∀ net ∈ nets, net ∉ nets') : Refreshed (nets' ++ nets) m m'' where
  evaluations := by rw [h'.evaluations, h.evaluations, List.append_assoc]
  networks := by
    intro net
    rw [h'.networks, h.networks, Option.map_map]
    refine Option.map_congr fun n _ => ?_
    simp only [Function.comp_apply, h.evaluate_eq, List.mem_append]
    by_cases hfirst : net ∈ nets
    · simp [hfirst, hapart net hfirst]
    · simp [hfirst]
  symbols := h'.symbols.trans h.symbols
  offsets := h'.offsets.trans h.offsets
  cache := h'.cache.trans h.cache
  attached := h'.attached.trans h.attached
  due := h'.due.trans h.due
  reactions := h'.reactions.trans h.reactions
  registered := fun r hr => (h'.registered r hr).trans (h.registered r hr)
  monitoring := h'.monitoring ∘ h.monitoring

end Refreshed

theorem Discreetly.refreshed (h : Discreetly m m') : Refreshed [] m m' where
  evaluations := h.evaluations
  networks := fun net => by simp [workspace, h.display]
  symbols := by rw [project, workspace, h.display]; rfl
  offsets := by rw [project, workspace, h.display]; rfl
  cache := h.gently.cache
  attached := by rw [h.display]
  due := by rw [h.display]
  reactions := h.gently.runs.reactions
  registered := h.registered
  monitoring := h.monitoring

/-- A network shows what its evaluation leaves behind, whether it fails or not. -/
theorem refreshed_evaluate (hmonitoring : m.Monitoring) (net : Nat) :
    Refreshed [net] m (m.evaluate net).1 := by
  obtain ⟨hactive, hkept⟩ := hmonitoring.askActive
  rw [evaluate_of_active hactive]
  cases hnet : m.workspace.network? net with
  | none =>
    refine ⟨rfl, fun other => ?_, rfl, rfl, rfl, rfl, rfl, rfl, fun _ _ => .rfl, fun _ => hkept⟩
    by_cases hother : other = net
    · subst hother
      exact hnet.trans (by rw [hnet]; rfl)
    · change m.workspace.network? other = _
      simp [hother]
  | some n =>
    have hlayout := m.workspace.layout_modify net fun _ => (n.evaluate m.project m.cache).1
    refine ⟨rfl, fun other => ?_, hlayout.1, hlayout.2, rfl, rfl, rfl, rfl, fun _ _ => .rfl,
      fun _ => hkept⟩
    refine (m.workspace.network?_modify net other _).trans (Option.map_congr fun n' hn' => ?_)
    by_cases hother : other = net
    · subst hother
      obtain rfl := Option.some.inj (hnet.symm.trans hn')
      simp
    · simp [hother, Ne.symm hother]

theorem evaluate_returns_iff (hmonitoring : m.Monitoring) :
    (m.evaluate net).2 = none ↔ m.Evaluable net := by
  rw [evaluate_of_active hmonitoring.askActive.1, Evaluable]
  cases m.workspace.network? net <;> simp

/-- The networks that are due, in the order in which they are evaluated. -/
def queue (m : Monitor) : List Nat :=
  m.dueInOrder.filterMap fun requester => Assoc.get? requester m.display.attached

theorem dueInOrder_perm (m : Monitor) : m.dueInOrder.Perm m.display.due :=
  List.mergeSort_perm _ _

/-- The networks of some requesters are evaluated up to the first that fails. -/
theorem refreshed_forEach {requesters : List Requester} (hmonitoring : m.Monitoring)
    (hnodup : (requesters.filterMap fun r => Assoc.get? r m.display.attached).Nodup) :
    Refreshed (m.attempted
        (requesters.filterMap fun r => Assoc.get? r m.display.attached)).reverse m
      (Outcome.forEach evaluateAttached requesters m).1 := by
  induction requesters generalizing m with
  | nil => exact .refl m
  | cons requester rest ih =>
    rw [Outcome.forEach]
    cases hnet : Assoc.get? requester m.display.attached with
    | none =>
      have hskipped : evaluateAttached requester m = (m, none) := by rw [evaluateAttached, hnet]
      simp only [List.filterMap_cons, hnet] at hnodup ⊢
      rw [hskipped]
      exact ih hmonitoring hnodup
    | some net =>
      have hevaluated : evaluateAttached requester m = m.evaluate net := by
        rw [evaluateAttached, hnet]
      have hrefreshed := refreshed_evaluate hmonitoring net
      simp only [List.filterMap_cons, hnet] at hnodup ⊢
      obtain ⟨hnew, hnodup⟩ := List.nodup_cons.1 hnodup
      rw [hevaluated, attempted]
      split
      · rename_i hevaluable
        rw [Outcome.andThen_eq_of_none ((evaluate_returns_iff hmonitoring).2 hevaluable)]
        have hlater := ih (hrefreshed.monitoring hmonitoring) (by rwa [hrefreshed.attached])
        rw [hrefreshed.attached] at hlater
        generalize (rest.filterMap fun r => Assoc.get? r m.display.attached) = others at *
        have hsame : (m.evaluate net).1.attempted others = m.attempted others :=
          attempted_congr fun other hmem => hrefreshed.evaluable_iff fun heq =>
            hnew (List.mem_singleton.1 heq ▸ hmem)
        rw [hsame] at hlater
        rw [List.reverse_cons]
        refine hrefreshed.trans hlater fun other heq hmem => ?_
        obtain rfl := List.mem_singleton.1 heq
        exact hnew ((attempted_sublist _ _).subset (List.mem_reverse.1 hmem))
      · rename_i hfails
        have hfault : (m.evaluate net).2 ≠ none := mt (evaluate_returns_iff hmonitoring).1 hfails
        rcases hresult : m.evaluate net with ⟨m', fault⟩
        rw [hresult] at hrefreshed hfault
        cases fault with
        | none => exact absurd rfl hfault
        | some fault => exact hrefreshed

/-- The networks that are due are those that are attached under requesters that are. -/
theorem Tended.mem_queue_iff (h : m.Tended) :
    net ∈ m.queue ↔ ∃ requester ∈ m.display.due, (requester, net) ∈ m.display.attached := by
  simp only [queue, List.mem_filterMap, m.dueInOrder_perm.mem_iff,
    Assoc.get?_eq_some_iff h.attached]

theorem Tended.nodup_queue (h : m.Tended) : m.queue.Nodup := by
  refine List.Nodup.filterMap (fun r r' net hr hr' => ?_) (m.dueInOrder_perm.nodup_iff.2 h.due)
  exact congrArg Prod.fst (h.eq_of_net ((Assoc.get?_eq_some_iff h.attached).1 hr)
    ((Assoc.get?_eq_some_iff h.attached).1 hr') rfl)

theorem Tended.evaluable_of_mem_queue (h : m.Tended)
    (hevaluable : ∀ entry ∈ m.display.attached, entry.1 ∈ m.display.due → m.Evaluable entry.2) :
    ∀ net ∈ m.queue, m.Evaluable net := by
  intro net hnet
  obtain ⟨requester, hdue, hentry⟩ := h.mem_queue_iff.1 hnet
  exact hevaluable _ hentry hdue

/-- The networks that are due are evaluated up to the first that fails, and then none is due. -/
theorem Tended.attempted_flush (h : m.Tended) (hmonitoring : m.Monitoring) :
    Refreshed (m.attempted m.queue).reverse { m with display.due := [] } m.flush.1 :=
  have hunmarked : attempted { m with display.due := [] } m.queue = m.attempted m.queue :=
    attempted_congr fun _ _ => .rfl
  hunmarked ▸ refreshed_forEach (m := { m with display.due := [] }) hmonitoring h.nodup_queue

/-- Each of the networks that are due is evaluated once, and then none is due. -/
theorem Tended.refreshed_flush (h : m.Tended) (hmonitoring : m.Monitoring)
    (hevaluable : ∀ entry ∈ m.display.attached, entry.1 ∈ m.display.due → m.Evaluable entry.2) :
    ∃ nets : List Nat, nets.Nodup ∧
      (∀ net, net ∈ nets ↔ ∃ requester ∈ m.display.due, (requester, net) ∈ m.display.attached) ∧
      Refreshed nets { m with display.due := [] } m.flush.1 := by
  have hflushed := h.attempted_flush hmonitoring
  rw [attempted_eq_self (h.evaluable_of_mem_queue hevaluable)] at hflushed
  refine ⟨_, List.nodup_reverse.2 h.nodup_queue, fun net => ?_, hflushed⟩
  rw [List.mem_reverse, h.mem_queue_iff]

theorem dueInOrder_of_sorted
    (hsorted : m.display.due.Pairwise fun a b => m.textOf a ≤ m.textOf b) :
    m.dueInOrder = m.display.due :=
  List.mergeSort_of_pairwise (by simpa using hsorted)

/-- When nobody but the display listens, what is due is evaluated, which may be in order already. -/
theorem tellAll_of_sorted (hlisteners : m.listeners = [.display])
    (hsorted : m.display.due.Pairwise fun a b => m.textOf a ≤ m.textOf b) :
    m.tellAll reactor = reportIf (Outcome.forEach evaluateAttached m.display.due
      { m.note (.told .display) with display.due := [] }) .listenerFailed := by
  have hflush : (m.note (.told .display)).flush = Outcome.forEach evaluateAttached m.display.due
      { m.note (.told .display) with display.due := [] } :=
    congrArg (fun list => Outcome.forEach evaluateAttached list _) (dueInOrder_of_sorted hsorted)
  rw [tellAll, hlisteners, List.foldl_cons, List.foldl_nil, ← hflush]
  rfl

/-- At the end of a tick the networks that are due are evaluated up to the first that fails, whoever
else is told, and then none is due. -/
theorem Tended.attempted_tellAll (h : m.Tended) (hlisteners : m.listeners.Nodup)
    (hgiven : m.Gives Command.Discreet) (hmonitoring : m.Monitoring) :
    Refreshed (m.attempted m.queue).reverse { m with display.due := [] } (m.tellAll reactor) := by
  obtain ⟨before, after, hsplit⟩ := List.append_of_mem h.listening
  rw [hsplit, List.nodup_middle, List.nodup_cons, List.mem_append, not_or] at hlisteners
  -- Those before the display and those behind it leave alone what the display is about.
  obtain ⟨told, htold⟩ : ∃ told, told = (before.foldl (tell reactor) m).note (.told .display) :=
    ⟨_, rfl⟩
  have hquiet : Discreetly m told := by
    rw [htold]
    exact (discreetly_tell_foldl hgiven hlisteners.1.1).trans
      (discreetly_move _ (v := .note (.told .display)) rfl)
  have htended : told.Tended := by
    rw [htold]
    refine overlooksWatching_tends.noted _ _ rfl
      (lasting_tends.foldl (fun m listener => ?_) before m h)
    exact overlooksWatching_tends.tell m within_reactor_tends listener
  have hqueue : told.attempted told.queue = m.attempted m.queue := by
    have hsame : told.queue = m.queue := by
      have hnames : told.textOf = m.textOf := by
        unfold textOf workspace
        rw [hquiet.display]
      rw [queue, queue, dueInOrder, dueInOrder, hnames, hquiet.display]
    rw [hsame]
    exact attempted_congr fun _ _ => hquiet.refreshed.evaluable_iff List.not_mem_nil
  have hflushed := htended.attempted_flush (hquiet.monitoring hmonitoring)
  rw [hqueue] at hflushed
  have htells : (before.foldl (tell reactor) m).tell reactor .display =
      reportIf told.flush .listenerFailed := by
    rw [htold]
    rfl
  have hreported := discreetly_reportIf (.refl told.flush.1) .listenerFailed
  have hgiven := hreported.gives ((hquiet.gives hgiven).of_eq hflushed.reactions)
  have hlast := (hreported.trans (discreetly_tell_foldl hgiven hlisteners.1.2)).refreshed
  have htellAll : m.tellAll reactor =
      after.foldl (tell reactor) (reportIf told.flush .listenerFailed) := by
    rw [tellAll, hsplit, List.foldl_append, List.foldl_cons, htells]
  have hfirst : Refreshed [] { m with display.due := [] } { told with display.due := [] } :=
    { hquiet.refreshed with due := rfl }
  have hall := (hfirst.trans hflushed (by simp)).trans hlast (by simp)
  rwa [List.append_nil, List.nil_append, ← htellAll] at hall

/-- At the end of a tick each of the networks that are due is evaluated once, whoever else is told,
and then none is due. -/
theorem Tended.refreshed_tellAll (h : m.Tended) (hlisteners : m.listeners.Nodup)
    (hgiven : m.Gives Command.Discreet) (hmonitoring : m.Monitoring)
    (hevaluable : ∀ entry ∈ m.display.attached, entry.1 ∈ m.display.due → m.Evaluable entry.2) :
    ∃ nets : List Nat, nets.Nodup ∧
      (∀ net, net ∈ nets ↔ ∃ requester ∈ m.display.due, (requester, net) ∈ m.display.attached) ∧
      Refreshed nets { m with display.due := [] } (m.tellAll reactor) := by
  have htold := h.attempted_tellAll hlisteners hgiven hmonitoring
  rw [attempted_eq_self (h.evaluable_of_mem_queue hevaluable)] at htold
  refine ⟨_, List.nodup_reverse.2 h.nodup_queue, fun net => ?_, htold⟩
  rw [List.mem_reverse, h.mem_queue_iff]

end Monitor

end LadderMonitor
