import LadderMonitor.Proofs.Ladder.History
import LadderMonitor.Proofs.Monitor.Session

namespace LadderMonitor

namespace Block

variable {p : Project} {b : Block} {blocks blocks' : List Block} {fault : Fault}

theorem range?_fault (h : b.range? p = .error fault) :
    b.symbol ≠ "" ∧ p.resolveText b.symbol = .error fault := by
  rw [range?] at h
  split at h
  · cases h
  · rename_i hsymbol
    cases hresolved : p.resolveText b.symbol with
    | error other =>
      rw [hresolved] at h
      obtain rfl : other = fault := Except.error.inj h
      exact ⟨by simpa using hsymbol, rfl⟩
    | ok resolved =>
      rw [hresolved] at h
      cases h

theorem ranges_fault (h : Block.ranges p blocks = .error fault) : Baffle p blocks fault := by
  have hmap : blocks.mapM (range? p) = .error fault := by
    unfold Block.ranges at h
    cases hmap : blocks.mapM (range? p) with
    | error other =>
      rw [hmap] at h
      rw [Except.error.inj h]
    | ok found =>
      rw [hmap] at h
      cases h
  clear h
  induction blocks with
  | nil => cases hmap
  | cons b rest ih =>
    rw [List.mapM_cons] at hmap
    cases hfirst : b.range? p with
    | error other =>
      rw [hfirst] at hmap
      obtain rfl := Except.error.inj hmap
      exact ⟨b, List.mem_cons_self, range?_fault hfirst⟩
    | ok range =>
      cases hrest : rest.mapM (range? p) with
      | error other =>
        rw [hfirst, hrest] at hmap
        obtain rfl := Except.error.inj hmap
        obtain ⟨b', hmem, hbaffled⟩ := ih hrest
        exact ⟨b', List.mem_cons_of_mem _ hmem, hbaffled⟩
      | ok others =>
        rw [hfirst, hrest] at hmap
        cases hmap

theorem Baffle.congr {p' : Project} (h : Baffle p' blocks' fault)
    (hsymbols : p'.symbols = p.symbols) (hoffsets : p'.offsets = p.offsets)
    (hblocks : blocks'.map (·.symbol) = blocks.map (·.symbol)) : Baffle p blocks fault := by
  obtain ⟨b', hmem, hsome, hresolve⟩ := h
  have hsymbol : b'.symbol ∈ blocks.map (·.symbol) := by
    rw [← hblocks]
    exact List.mem_map_of_mem hmem
  obtain ⟨b, hb, heq⟩ := List.mem_map.1 hsymbol
  rw [Project.resolveText_congr hsymbols hoffsets] at hresolve
  exact ⟨b, hb, by rwa [heq], by rwa [heq]⟩

end Block

/-- Whether a symbol of a network cannot be resolved, for a reason. -/
def Workspace.Baffles (w : Workspace) (net : Nat) : Fault → Prop :=
  Block.Baffle w.project (((w.network? net).map (·.blocks)).getD [])

/-- Whether all resolutions that the blocks of a network remember are what their symbols resolve to
now. -/
def Workspace.Current (w : Workspace) (net : Nat) : Prop :=
  ∀ n, w.network? net = some n → n.Current w.project

/-- Whether the places of the blocks of a network take some bytes and can be written out. -/
def Workspace.Placed (w : Workspace) (net : Nat) : Prop :=
  ∀ n, w.network? net = some n → ∀ b ∈ n.blocks, b.Placed w.project

/-- Whether all addresses that the symbols of a network resolve to can be written out. -/
def Workspace.Nameable (w : Workspace) (net : Nat) : Prop :=
  ∀ n, w.network? net = some n → ∀ b ∈ n.blocks, b.Nameable w.project

instance (w : Workspace) (net : Nat) : Decidable (w.Placed net) :=
  inferInstanceAs (Decidable (∀ n ∈ w.network? net, ∀ b ∈ n.blocks, b.Placed w.project))

instance (w : Workspace) (net : Nat) : Decidable (w.Nameable net) :=
  inferInstanceAs (Decidable (∀ n ∈ w.network? net, ∀ b ∈ n.blocks, b.Nameable w.project))

theorem Workspace.nameable_of_networks {w : Workspace}
    (h : ∀ n ∈ w.networks, ∀ b ∈ n.blocks, b.Nameable w.project) (net : Nat) : w.Nameable net :=
  fun n hn => h n (List.mem_of_getElem? hn)

theorem Workspace.Nameable.placed {w : Workspace} {net : Nat} (h : w.Nameable net)
    (hcurrent : w.Current net) : w.Placed net :=
  fun n hn b hb => (h n hn b hb).placed (hcurrent n hn b hb)

theorem Workspace.current_modify_invalidate (w : Workspace) (net : Nat) :
    (w.modify net Network.invalidate).Current net := by
  intro n hn
  rw [network?_modify] at hn
  obtain ⟨old, -, rfl⟩ := Option.map_eq_some_iff.1 hn
  rw [if_pos rfl]
  exact old.current_invalidate _

/-- Two workspaces differ in nothing but what networks show and remember. -/
structure Workspace.Alike (w w' : Workspace) : Prop where
  symbols : w'.project.symbols = w.project.symbols
  offsets : w'.project.offsets = w.project.offsets
  networks : ∀ net, (w'.network? net).map Network.bare = (w.network? net).map Network.bare

namespace Workspace.Alike

variable {w w' w'' : Workspace} {net : Nat} {fault : Fault}

theorem refl (w : Workspace) : w.Alike w := ⟨rfl, rfl, fun _ => rfl⟩

theorem trans (h : w.Alike w') (h' : w'.Alike w'') : w.Alike w'' :=
  ⟨h'.symbols.trans h.symbols, h'.offsets.trans h.offsets,
    fun net => (h'.networks net).trans (h.networks net)⟩

theorem symm (h : w.Alike w') : w'.Alike w :=
  ⟨h.symbols.symm, h.offsets.symm, fun net => (h.networks net).symm⟩

theorem modify (w : Workspace) (net : Nat) {change : Network → Network}
    (hbare : ∀ n, w.network? net = some n → (change n).bare = n.bare) :
    w.Alike (w.modify net change) := by
  obtain ⟨hsymbols, hoffsets⟩ := w.layout_modify net change
  refine ⟨hsymbols, hoffsets, fun other => ?_⟩
  rw [network?_modify, Option.map_map]
  refine Option.map_congr fun n hn => ?_
  simp only [Function.comp_apply]
  split
  · rename_i heq
    exact hbare n (heq ▸ hn)
  · rfl

theorem invalidate (w : Workspace) (net : Nat) : w.Alike (w.modify net Network.invalidate) :=
  modify w net fun n _ => n.bare_invalidate

theorem baffles (h : w.Alike w') (hbaffles : w'.Baffles net fault) : w.Baffles net fault := by
  refine hbaffles.congr h.symbols h.offsets ?_
  have hsymbols := congrArg (Option.map fun n => n.blocks.map (·.symbol)) (h.networks net)
  have hbare (n : Network) : n.bare.blocks.map (·.symbol) = n.blocks.map (·.symbol) := by
    rw [Network.bare, List.map_map]
    rfl
  rw [Option.map_map, Option.map_map] at hsymbols
  revert hsymbols
  cases w'.network? net <;> cases w.network? net <;> simp [hbare]

theorem nameable (h : w.Alike w') (hnameable : w.Nameable net) : w'.Nameable net := by
  intro n' hn' b hb r hresolve
  obtain ⟨n, hn, hbare⟩ : ∃ n, w.network? net = some n ∧ n.bare = n'.bare :=
    Option.map_eq_some_iff.1 ((h.networks net).symm.trans (congrArg (Option.map Network.bare) hn'))
  rw [Project.resolveText_congr h.symbols h.offsets] at hresolve
  exact Network.nameable_of_bare hbare.symm (hnameable n hn) b hb r hresolve

theorem invalidateAll (m : Monitor) : m.workspace.Alike m.invalidateAll.workspace := by
  have hlasting : Monitor.Lasting fun m m' => m.workspace.Alike m'.workspace :=
    ⟨fun m => .refl m.workspace, trans⟩
  have hstep (m : Monitor) (net : Nat) : m.workspace.Alike (m.invalidate net).workspace :=
    invalidate m.workspace net
  exact hlasting.foldl hstep _ m

end Workspace.Alike

namespace Outcome

variable {α : Type} {o : Outcome} {next : Monitor → Outcome} {fault : Fault}

theorem andThen_fault (h : (o.andThen next).2 = some fault) :
    o.2 = some fault ∨ o.2 = none ∧ (next o.1).2 = some fault := by
  obtain ⟨m, other⟩ := o
  cases other with
  | none => exact .inr ⟨rfl, h⟩
  | some other => exact .inl h

theorem andThen_eq_of_some (h : o.2 = some fault) : o.andThen next = o := by
  obtain ⟨m, other⟩ := o
  obtain rfl : other = some fault := h
  rfl

theorem forEach_append {act : α → Monitor → Outcome} {m : Monitor} (items more : List α) :
    forEach act (items ++ more) m = (forEach act items m).andThen (forEach act more) := by
  induction items generalizing m with
  | nil => rfl
  | cons a rest ih =>
    rw [List.cons_append, forEach, forEach]
    rcases act a m with ⟨m', fault⟩
    cases fault with
    | none => exact ih
    | some fault => rfl

/-- What goes through with a row goes through with its first elements, and then with the others. -/
theorem forEach_split {act : α → Monitor → Outcome} {items more : List α} {m : Monitor}
    (h : (forEach act (items ++ more) m).2 = none) :
    (forEach act items m).2 = none ∧
      forEach act (items ++ more) m = forEach act more (forEach act items m).1 := by
  rw [forEach_append] at h ⊢
  have hfirst := snd_eq_none_of_andThen h
  exact ⟨hfirst, andThen_eq_of_none hfirst⟩

theorem forEach_snoc {act : α → Monitor → Outcome} {items left : List α} {a : α} {m : Monitor}
    (h : (forEach act (items ++ a :: left) m).2 = none) :
    (forEach act (items ++ [a]) m).2 = none ∧
      (forEach act (items ++ [a]) m).1 = (act a (forEach act items m).1).1 := by
  rw [List.append_cons] at h
  obtain ⟨hreturns, -⟩ := forEach_split h
  obtain ⟨-, heq⟩ := forEach_split hreturns
  refine ⟨hreturns, ?_⟩
  rw [heq] at hreturns ⊢
  rw [(forEach_cons hreturns).2]
  rfl

/-- What fails with a row fails with the first of its elements that does. -/
theorem forEach_stopped {act : α → Monitor → Outcome} {items : List α} {m : Monitor}
    (h : (forEach act items m).2 = some fault) :
    ∃ done a left, items = done ++ a :: left ∧ (forEach act done m).2 = none ∧
      forEach act items m = act a (forEach act done m).1 := by
  induction items generalizing m with
  | nil => cases h
  | cons a rest ih =>
    rw [forEach] at h ⊢
    rcases hfirst : act a m with ⟨m', other⟩
    cases other with
    | some other => exact ⟨[], a, rest, rfl, rfl, hfirst.symm⟩
    | none =>
      rw [hfirst] at h
      obtain ⟨done, b, left, rfl, hreturned, hstopped⟩ := ih h
      have hfirst' (items : List α) : forEach act (a :: items) m = forEach act items m' := by
        rw [forEach, hfirst]
        rfl
      exact ⟨a :: done, b, left, rfl, by rw [hfirst', hreturned], by rw [hfirst', ← hstopped]; rfl⟩

theorem forEach_fault {R : Monitor → Monitor → Prop} (hlasting : Monitor.Lasting R)
    {act : α → Monitor → Outcome} {items : List α} (hstep : ∀ a ∈ items, ∀ m, R m (act a m).1)
    {m : Monitor} (h : (forEach act items m).2 = some fault) :
    ∃ a ∈ items, ∃ m', R m m' ∧ (act a m').2 = some fault := by
  induction items generalizing m with
  | nil => cases h
  | cons a rest ih =>
    obtain ⟨hfirst, hrest⟩ := List.forall_mem_cons.1 hstep
    rcases andThen_fault h with hfault | ⟨-, hlater⟩
    · exact ⟨a, List.mem_cons_self, m, hlasting.refl m, hfault⟩
    · obtain ⟨other, hmem, m', hR, hfault⟩ := ih hrest hlater
      exact ⟨other, List.mem_cons_of_mem a hmem, m', hlasting.trans (hfirst m) hR, hfault⟩

end Outcome

namespace Monitor

variable {m : Monitor} {requester : Requester} {net : Nat} {fault : Fault}

theorem consult_fault {p : Option Predicate} {other : Fault}
    (h : (consult p fault).1 = .error other) : other = fault := by
  cases p with
  | none => cases h
  | some p =>
    simp only [consult] at h
    cases hreply : p.reply with
    | failing =>
      rw [hreply] at h
      exact (Except.error.inj h).symm
    | _ =>
      rw [hreply] at h
      cases h

theorem askActive_fault (h : m.askActive.1 = .error fault) :
    fault = .activeFailed ∧ ¬ m.Monitoring := by
  refine ⟨consult_fault h, fun hmonitoring => ?_⟩
  rw [hmonitoring.askActive.1] at h
  cases h

theorem register_fault {key : RegistrationKey} {s : Subscriber}
    (h : (m.register key s).2 = some fault) : fault = .activeFailed ∧ ¬ m.Monitoring := by
  refine ⟨?_, fun hmonitoring => ?_⟩
  · unfold register at h
    split at h
    · cases h
    · unfold startIfActive at h
      split at h
      · cases h
      · split at h
        · cases h
        · cases h
        · rename_i other m' hasked
          obtain rfl := Option.some.inj h
          exact consult_fault (congrArg Prod.fst hasked)
  · rw [(hmonitoring.register key s).1] at h
    cases h

theorem evaluate_fault (hcurrent : m.workspace.Current net)
    (h : (m.evaluate net).2 = some fault) :
    fault = .activeFailed ∧ ¬ m.Monitoring ∨ m.workspace.Baffles net fault ∨
      ¬ fault.isWordable := by
  have hnoted : (m.note (.evaluated net)).askActive.1 = m.askActive.1 := rfl
  cases hasked : (m.note (.evaluated net)).askActive with
  | mk answer asked =>
    have hworkspace : asked.workspace = m.workspace := by
      obtain rfl := (Prod.mk.inj hasked).2
      rfl
    unfold evaluate at h
    rw [hasked] at h hnoted
    split at h
    · rename_i heq
      obtain ⟨rfl, rfl⟩ := Prod.mk.inj heq
      obtain rfl := Option.some.inj h
      exact .inl (askActive_fault hnoted.symm)
    · cases h
    · rename_i heq
      obtain ⟨-, rfl⟩ := Prod.mk.inj heq
      rw [hworkspace] at h
      unfold Workspace.Baffles
      cases hnet : m.workspace.network? net with
      | none =>
        rw [hnet] at h
        cases h
      | some n =>
        rw [hnet] at h
        have hproject : asked.project = m.workspace.project :=
          congrArg Workspace.project hworkspace
        rw [hproject] at h
        exact .inr ((hcurrent n hnet).evaluate_fault h)

/-- Once there is a marker, nothing displayed changes when a network is resolved anew. -/
theorem sameDisplay_sync (m : Monitor) (requester : Requester) (net : Nat) :
    SameDisplay (m.marker requester).1 (m.sync requester net).1 := by
  unfold sync
  simp only
  split
  · exact lasting_sameDisplay.refl _
  · refine lasting_sameDisplay.andThen ?_ fun m => ?_
    · exact sameDisplay_registerAll _ requester _ _
    · exact sameDisplay_dropOthers m requester _ _

theorem markers_marker (m : Monitor) (requester : Requester) :
    (m.marker requester).1.display.markers =
      Assoc.set requester (m.marker requester).2 m.display.markers := by
  rcases m.marker_cases requester with ⟨s, hs, heq⟩ | ⟨-, heq⟩
  · rw [heq, Assoc.set_eq_self hs]
  · rw [heq]

theorem markers_sync (m : Monitor) (requester : Requester) (net : Nat) :
    (m.sync requester net).1.display.markers =
      Assoc.set requester (m.marker requester).2 m.display.markers := by
  rw [(m.sameDisplay_sync requester net).display, markers_marker]

/-- Networks stay as they are when their symbols are resolved anew, and only a marker may be new. -/
theorem sync_kept (m : Monitor) (requester : Requester) (net : Nat) :
    ∃ markers, SameDisplay { m with display.markers := markers } (m.sync requester net).1 := by
  obtain ⟨nextStamp, markers, heq, -⟩ := m.marker_spec requester
  refine ⟨markers, ?_⟩
  have hmarked : SameDisplay { m with display.markers := markers } (m.marker requester).1 := by
    rw [heq]
    exact ⟨rfl, rfl, id⟩
  exact lasting_sameDisplay.trans hmarked (m.sameDisplay_sync requester net)

/-- What is shown, attached and due is as it was, and monitoring stays active if it was. -/
structure SameShown (m m' : Monitor) : Prop where
  reactions : m'.reactions = m.reactions
  workspace : m'.workspace = m.workspace
  attached : m'.display.attached = m.display.attached
  due : m'.display.due = m.display.due
  monitoring : m.Monitoring → m'.Monitoring

theorem lasting_sameShown : Lasting SameShown where
  refl := fun _ => ⟨rfl, rfl, rfl, rfl, id⟩
  trans := fun h h' => ⟨h'.reactions.trans h.reactions, h'.workspace.trans h.workspace,
    h'.attached.trans h.attached, h'.due.trans h.due, h'.monitoring ∘ h.monitoring⟩

theorem sameShown_sync (m : Monitor) (requester : Requester) (net : Nat) :
    SameShown m (m.sync requester net).1 := by
  obtain ⟨markers, hkept⟩ := m.sync_kept requester net
  refine ⟨hkept.reactions, ?_, ?_, ?_, hkept.monitoring⟩
  · rw [workspace, hkept.display]
    rfl
  · rw [hkept.display]
  · rw [hkept.display]

theorem sync_fault (h : (m.sync requester net).2 = some fault) :
    fault = .activeFailed ∧ ¬ m.Monitoring ∨ m.workspace.Baffles net fault := by
  obtain ⟨_, _, hmarked, -⟩ := m.marker_spec requester
  have hworkspace : (m.marker requester).1.workspace = m.workspace := by
    rw [hmarked]
    rfl
  have hproject : (m.marker requester).1.project = m.workspace.project :=
    congrArg Workspace.project hworkspace
  have hmonitoring (hm : m.Monitoring) : (m.marker requester).1.Monitoring := by
    rw [hmarked]
    exact hm
  unfold sync at h
  simp only [hworkspace, hproject] at h
  split at h
  · rename_i other hranges
    obtain rfl := Option.some.inj h
    exact .inr (Block.ranges_fault hranges)
  · rcases Outcome.andThen_fault h with hfault | ⟨-, hdropped⟩
    · obtain ⟨range, -, _, hsame, hfault⟩ := Outcome.forEach_fault lasting_sameDisplay
        (fun range _ m => m.sameDisplay_register ⟨requester, range⟩ _) hfault
      obtain ⟨hactive, hnot⟩ := register_fault hfault
      exact .inl ⟨hactive, fun hm => hnot (hsame.monitoring (hmonitoring hm))⟩
    · cases hdropped

/-- A reset resolves the attached networks anew, unless the active predicate fails or a symbol of
one of them cannot be resolved. -/
theorem reset_fault {react : Reactor} (h : (m.reset react).2 = some fault) :
    fault = .activeFailed ∧ ¬ m.Monitoring ∨
      ∃ entry ∈ m.display.attached, m.workspace.Baffles entry.2 fault := by
  obtain ⟨-, hsame, hattached, -⟩ := m.invalidateAll_spec
  unfold reset at h
  rcases Outcome.andThen_fault h with hfault | ⟨-, hnone⟩
  · obtain ⟨entry, hmem, before, hkept, hfault⟩ := Outcome.forEach_fault lasting_sameShown
      (fun entry _ m => m.sameShown_sync entry.1 entry.2) hfault
    rw [hattached] at hmem
    refine (sync_fault hfault).imp
      (fun ⟨hactive, hnot⟩ => ⟨hactive, fun hm => hnot (hkept.monitoring (hm.of_eq hsame.active))⟩)
      fun hbaffled => ⟨entry, hmem, ?_⟩
    rw [hkept.workspace] at hbaffled
    exact (Workspace.Alike.invalidateAll m).baffles hbaffled
  · cases hnone

end Monitor

end LadderMonitor
