import LadderMonitor.Proofs.Ladder.Failure

namespace LadderMonitor

namespace Block

variable {p p' : Project} {memory : Bytes} {b b' b'' : Block} {blocks : List Block}
  {r : ResolvedAddress} {fault : Fault}

theorem reset_congr (hsymbols : p'.symbols = p.symbols) (hoffsets : p'.offsets = p.offsets)
    (memory : Bytes) (b : Block) : b.reset p' memory = b.reset p memory := by
  have hresolution : b.resolution p' = b.resolution p := by
    unfold resolution
    rw [Project.resolveText_congr hsymbols hoffsets]
  unfold reset
  rw [hresolution]

/-- What an evaluation starts from: a block without its state, and the resolution that it remembers.
-/
def outline (b : Block) : Block × Option ResolvedAddress := (b.bare, b.stateOrFresh.resolved)

theorem eq_of_bare (h : b'.bare = b.bare) : b' = { b with state := b'.state } := by
  have hrestored : ({ b'.bare with state := b'.state } : Block) = b' := rfl
  rw [← hrestored, h]
  rfl

/-- A block that has been resolved is resolved to the same as long as it remembers that. -/
theorem resolution_again {resolved : Option ResolvedAddress} {state : Option BlockState}
    (hresolution : b.resolution p = .ok resolved)
    (hresolved : (state.getD {}).resolved = resolved) :
    resolution p { b with state } = .ok resolved := by
  have hremembered : ({ b with state } : Block).stateOrFresh.resolved = resolved := hresolved
  unfold resolution at hresolution ⊢
  rw [hremembered]
  cases resolved with
  | some r => rfl
  | none =>
    split at hresolution
    · cases hresolution
    · exact hresolution

/-- A block that has been reset is reset to the same, whatever it shows by then. -/
theorem reset_again (hreset : b.reset p memory = (b', none)) (hsame : b''.outline = b'.outline) :
    b''.reset p memory = (b', none) := by
  obtain ⟨resolved, active, hresolution, hactive, rfl⟩ := of_reset hreset
  obtain ⟨hbare, hresolved⟩ := Prod.mk.inj hsame
  rw [eq_of_bare (b := b) hbare]
  have hagain : resolution p { b with state := b''.state } = .ok resolved :=
    resolution_again hresolution hresolved
  have hactive' : activeAt memory { b with state := b''.state } resolved = .ok active := by
    cases resolved <;> exact hactive
  unfold reset
  simp only [hagain, hactive']
  rfl

/-- A block that remembers what its symbol resolves to is resolved as if it remembered nothing. -/
theorem Current.resolution_bare (h : b.Current p) : b.resolution p = b.bare.resolution p := by
  have hbare : b.bare.resolution p =
      if b.symbol.isEmpty then .ok none else p.resolveText b.symbol := rfl
  rw [hbare, resolution]
  split
  · rename_i r hremembered
    obtain ⟨hsymbol, hresolve⟩ := h r hremembered
    rw [if_neg (by simpa using hsymbol), hresolve]
  · rfl

theorem Current.reset_returns (h : b.Current p) (hnameable : b.Nameable p)
    (hresolves : ∀ fault, ¬ (b.symbol ≠ "" ∧ p.resolveText b.symbol = .error fault))
    (memory : Bytes) : ∃ b', b.reset p memory = (b', none) := by
  refine ⟨(b.reset p memory).1, Prod.ext rfl (reset_returns_iff.2 fun fault hjams => ?_)⟩
  exact hresolves fault (hjams.unresolved_of_placed (hnameable.placed h))

/-- A block that can be resolved, and remembers nothing else, is reset as if it had no state. -/
theorem Current.reset_bare (h : b.Current p) (hnameable : b.Nameable p)
    (hresolves : ∀ fault, ¬ (b.symbol ≠ "" ∧ p.resolveText b.symbol = .error fault)) :
    b.reset p memory = b.bare.reset p memory := by
  obtain ⟨b', hreset⟩ := h.reset_returns hnameable hresolves memory
  obtain ⟨b'', hreset'⟩ := (b.current_bare p).reset_returns hnameable hresolves memory
  obtain ⟨resolved, active, hresolution, hactive, rfl⟩ := of_reset hreset
  obtain ⟨resolved', active', hresolution', hactive', rfl⟩ := of_reset hreset'
  rw [← h.resolution_bare, hresolution] at hresolution'
  obtain rfl := Except.ok.inj hresolution'
  have hsame : b.bare.activeAt memory resolved = b.activeAt memory resolved := by
    cases resolved <;> rfl
  rw [hsame, hactive] at hactive'
  obtain rfl := Except.ok.inj hactive'
  exact hreset.trans hreset'.symm

theorem baffle_map_bare : Baffle p (blocks.map bare) fault ↔ Baffle p blocks fault := by
  simp [Baffle, bare]

end Block

namespace Network

variable {p p' : Project} {memory : Bytes} {n n' shown : Network} {blocks fresh again : List Block}

theorem resetBlocks_congr (hsymbols : p'.symbols = p.symbols) (hoffsets : p'.offsets = p.offsets)
    (memory : Bytes) (blocks : List Block) :
    resetBlocks p' memory blocks = resetBlocks p memory blocks := by
  induction blocks with
  | nil => rfl
  | cons b rest ih => rw [resetBlocks, resetBlocks, Block.reset_congr hsymbols hoffsets, ih]

/-- For an evaluation the symbols and offsets of a project matter, and its networks do not. -/
theorem evaluate_congr (hsymbols : p'.symbols = p.symbols) (hoffsets : p'.offsets = p.offsets)
    (memory : Bytes) (n : Network) : n.evaluate p' memory = n.evaluate p memory := by
  unfold evaluate
  rw [resetBlocks_congr hsymbols hoffsets]

theorem resetBlocks_again (hreset : resetBlocks p memory blocks = (fresh, none))
    (hsame : again.map Block.outline = fresh.map Block.outline) :
    resetBlocks p memory again = (fresh, none) := by
  induction blocks generalizing fresh again with
  | nil =>
    obtain rfl := (Prod.mk.inj hreset).1
    rw [List.map_eq_nil_iff.1 hsame]
    rfl
  | cons b rest ih =>
    rw [resetBlocks] at hreset
    split at hreset
    · cases hreset
    · rename_i first hfirst
      rcases hrest : resetBlocks p memory rest with ⟨others, fault⟩
      rw [hrest, Prod.mk.injEq] at hreset
      obtain ⟨rfl, rfl⟩ := hreset
      obtain ⟨b'', rest'', rfl, hb, hothers⟩ := List.map_eq_cons_iff.1 hsame
      rw [resetBlocks, Block.reset_again hfirst hb]
      simp only [ih hrest hothers]

theorem map_outline_display (n : Network) (flow : Flow) :
    (n.display flow).blocks.map Block.outline = n.blocks.map Block.outline := by
  apply List.ext_getElem?
  intro i
  simp only [List.getElem?_map, getElem?_blocks_display, Option.map_map]
  rfl

theorem wires_resetWires_display (n : Network) (flow : Flow) :
    (n.display flow).resetWires.wires = n.resetWires.wires := by
  apply List.ext_getElem?
  intro k
  simp only [resetWires, List.getElem?_map, getElem?_wires_display, Option.map_map]
  rfl

/-- An evaluation that succeeds shows the same when it is repeated. -/
theorem evaluate_again (heval : n.evaluate p memory = (shown, none)) :
    shown.evaluate p memory = (shown, none) := by
  obtain ⟨fresh, rfl, hreset, hfresh⟩ := exists_display_of_evaluate heval
  have hwires : fresh.resetWires.wires = fresh.wires := by
    rw [hfresh]
    simp [resetWires]
  have hagain : resetBlocks p memory (fresh.display fresh.flow).blocks = (fresh.blocks, none) :=
    resetBlocks_again hreset (map_outline_display fresh fresh.flow)
  have hsame : { (fresh.display fresh.flow).resetWires with blocks := fresh.blocks } = fresh :=
    congrArg (fun wires => { fresh with wires })
      ((wires_resetWires_display fresh fresh.flow).trans hwires)
  unfold evaluate
  simp only [hagain, hsame]

/-- A network after its evaluations against some images of memory, the first of them first. -/
def evaluateOver (p : Project) (images : List Bytes) (n : Network) : Network :=
  images.foldl (fun n memory => (n.evaluate p memory).1) n

theorem baffle_of_bare {fault : Fault} (hbare : n'.bare = n.bare)
    (h : Block.Baffle p n'.blocks fault) : Block.Baffle p n.blocks fault := by
  have hblocks : n'.blocks.map Block.bare = n.blocks.map Block.bare :=
    congrArg Network.blocks hbare
  rwa [← Block.baffle_map_bare, ← hblocks, Block.baffle_map_bare]

theorem nameable_of_bare (hbare : n'.bare = n.bare) (h : ∀ b ∈ n.blocks, b.Nameable p) :
    ∀ b ∈ n'.blocks, b.Nameable p := by
  intro b hb
  have hmem : b.bare ∈ n.bare.blocks := hbare ▸ List.mem_map_of_mem hb
  obtain ⟨before, hbefore, heq⟩ := List.mem_map.1 hmem
  have hnameable : before.bare.Nameable p := h before hbefore
  rwa [heq] at hnameable

theorem resetBlocks_map_bare (hresolves : ∀ fault, ¬ Block.Baffle p blocks fault)
    (hnameable : ∀ b ∈ blocks, b.Nameable p) (hcurrent : ∀ b ∈ blocks, b.Current p)
    (memory : Bytes) :
    resetBlocks p memory blocks = resetBlocks p memory (blocks.map Block.bare) := by
  induction blocks with
  | nil => rfl
  | cons b rest ih =>
    obtain ⟨hfirst, hrest⟩ := List.forall_mem_cons.1 hcurrent
    obtain ⟨hname, hnames⟩ := List.forall_mem_cons.1 hnameable
    have hresolved (fault : Fault) : ¬ (b.symbol ≠ "" ∧ p.resolveText b.symbol = .error fault) :=
      fun hbaffled => hresolves fault ⟨b, List.mem_cons_self, hbaffled⟩
    have hreset : b.reset p memory = b.bare.reset p memory := hfirst.reset_bare hname hresolved
    obtain ⟨b', hreturns⟩ := (b.current_bare p).reset_returns hname hresolved memory
    have hothers : resetBlocks p memory rest = resetBlocks p memory (rest.map Block.bare) :=
      ih (fun fault ⟨other, hmem, hbaffled⟩ =>
        hresolves fault ⟨other, List.mem_cons_of_mem b hmem, hbaffled⟩) hnames hrest
    rw [List.map_cons, resetBlocks, resetBlocks, hreset, hreturns, hothers]

/-- A network is evaluated as if it had no states. -/
theorem Current.evaluate_bare (h : n.Current p)
    (hresolves : ∀ fault, ¬ Block.Baffle p n.blocks fault)
    (hnameable : ∀ b ∈ n.blocks, b.Nameable p) (memory : Bytes) :
    n.evaluate p memory = n.bare.evaluate p memory := by
  have hblocks : resetBlocks p memory n.blocks = resetBlocks p memory n.bare.blocks :=
    resetBlocks_map_bare hresolves hnameable h memory
  have hwires (blocks : List Block) :
      { n.resetWires with blocks } = { n.bare.resetWires with blocks } := by
    simp [resetWires, bare]
  unfold Network.evaluate
  rw [hblocks]
  simp only [hwires]

theorem Current.returns (h : n.Current p) (hresolves : ∀ fault, ¬ Block.Baffle p n.blocks fault)
    (hnameable : ∀ b ∈ n.blocks, b.Nameable p) (memory : Bytes) :
    ∃ shown, n.evaluate p memory = (shown, none) := by
  refine ⟨(n.evaluate p memory).1, Prod.ext rfl (evaluate_returns_iff.2 ?_)⟩
  intro b hb fault hjams
  exact hresolves fault ⟨b, hb, hjams.unresolved_of_placed ((hnameable b hb).placed (h b hb))⟩

theorem Current.evaluateOver (h : n.Current p) (images : List Bytes) :
    (n.evaluateOver p images).Current p ∧ (n.evaluateOver p images).bare = n.bare := by
  induction images generalizing n with
  | nil => exact ⟨h, rfl⟩
  | cons memory rest ih =>
    obtain ⟨hcurrent, hbare⟩ := ih (n := (n.evaluate p memory).1) h.evaluate
    exact ⟨hcurrent, hbare.trans (n.bare_evaluate p memory)⟩

/-- What an evaluation shows does not depend on history, as long as the symbols resolve to addresses
that can be written out: from any two states of a network in which the blocks remember nothing but
what their symbols resolve to, it ends in the same states, which again remember nothing else. So to
repeat it changes nothing, it is all the same whether remembered resolutions are dropped before, and
after evaluations against any images it shows what it shows without any state. -/
theorem evaluate_history_independent
    (hresolves : ∀ fault, ¬ Block.Baffle p n.blocks fault)
    (hnameable : ∀ b ∈ n.blocks, b.Nameable p) (hcurrent : n.Current p)
    (hcurrent' : n'.Current p) (hbare : n'.bare = n.bare) (memory : Bytes) :
    ∃ shown, n.evaluate p memory = (shown, none) ∧ n'.evaluate p memory = (shown, none) ∧
      shown.Current p ∧ shown.evaluate p memory = (shown, none) ∧
      n.invalidate.evaluate p memory = (shown, none) ∧
      (∀ images, (n.evaluateOver p images).evaluate p memory = (shown, none)) ∧
      n.bare.evaluate p memory = (shown, none) := by
  obtain ⟨shown, heval⟩ := hcurrent.returns hresolves hnameable memory
  have hsame (other : Network) (hother : other.Current p) (hbare : other.bare = n.bare) :
      other.evaluate p memory = (shown, none) := by
    have hresolves' (fault : Fault) : ¬ Block.Baffle p other.blocks fault :=
      fun hbaffled => hresolves fault (baffle_of_bare hbare hbaffled)
    rw [hother.evaluate_bare hresolves' (nameable_of_bare hbare hnameable), hbare,
      ← hcurrent.evaluate_bare hresolves hnameable, heval]
  have hshown : shown.Current p := by
    have hafter : (n.evaluate p memory).1.Current p := hcurrent.evaluate
    rwa [heval] at hafter
  refine ⟨shown, heval, hsame n' hcurrent' hbare, hshown, ?_, ?_, fun images => ?_, ?_⟩
  · exact hsame shown hshown (evaluate_shows_reachability heval).1
  · exact hsame _ (n.current_invalidate p) n.bare_invalidate
  · obtain ⟨hover, hsamebare⟩ := hcurrent.evaluateOver images
    exact hsame _ hover hsamebare
  · rw [← hcurrent.evaluate_bare hresolves hnameable, heval]

/-- The cycle with everything shown as active and powered, and the place of the first contact
remembered. -/
def worn : Network :=
  { cyclic with
    blocks := cyclic.blocks.map fun b =>
      { b with state := some ⟨true, true, true, true, true,
          if b.id = "a" then some ⟨0, 1, some 0, .bit⟩ else none⟩ }
    wires := cyclic.wires.map fun w => { w with state := some ⟨true, true⟩ } }

theorem evaluate_history_independent_worn :
    ∃ shown, cyclic.evaluate .empty #[1] = (shown, none) ∧
      worn.evaluate .empty #[1] = (shown, none) ∧ shown.Current .empty ∧
      shown.evaluate .empty #[1] = (shown, none) ∧
      cyclic.invalidate.evaluate .empty #[1] = (shown, none) ∧
      (∀ images, (cyclic.evaluateOver .empty images).evaluate .empty #[1] = (shown, none)) ∧
      cyclic.bare.evaluate .empty #[1] = (shown, none) := by
  have hresolves : ∀ b ∈ cyclic.blocks, (Project.empty.resolveText b.symbol).isOk := by
    decide +kernel
  have hnameable : ∀ b ∈ cyclic.blocks, b.Nameable .empty := by decide +kernel
  have hcurrent : cyclic.Current .empty := by decide +kernel
  have hcurrent' : worn.Current .empty := by decide +kernel
  have hbare : worn.bare = cyclic.bare := by decide +kernel
  exact evaluate_history_independent (Block.not_baffle hresolves) hnameable hcurrent hcurrent' hbare
    #[1]

/-- A contact whose symbol lies too far off, and a lamp on the rail in some state. -/
def beyond (state : Option BlockState) : Network where
  name := "beyond"
  comment := ""
  blocks := [⟨"z", 0, 0, .contact, false, .normal, Project.farMarker, none⟩,
    ⟨"p", 1, 0, .contact, false, .normal, "0.0", state⟩]
  wires := []

theorem blocks_evaluate_of_jams {b : Block} {rest : List Block} {fault : Fault}
    (hblocks : n.blocks = b :: rest) (hjams : b.Jams p memory fault) :
    (n.evaluate p memory).1.blocks = (b.reset p memory).1 :: rest := by
  unfold evaluate
  rw [hblocks, resetBlocks_of_jams hjams]

/-- Both symbols resolve and nothing is remembered that is not current, but the evaluation ends at
the first block, and the second goes on showing what it showed. -/
theorem evaluate_depends_on_history :
    (∀ b ∈ (beyond none).blocks, (Project.empty.resolveText b.symbol).isOk) ∧
      (beyond none).Current .empty ∧ (beyond (some { active := true })).Current .empty ∧
      (beyond (some { active := true })).bare = (beyond none).bare ∧
      (((beyond none).evaluate .empty #[0]).1.blocks[1]?.map fun b => b.state) = some none ∧
      (((beyond (some { active := true })).evaluate .empty #[0]).1.blocks[1]?.map
        fun b => b.state) = some (some { active := true }) := by
  have hmemory : ¬ IsLong ((#[0] : Bytes).size : Int) :=
    not_isLong_of_small (by decide) (by decide)
  obtain ⟨hresolves, fault, hjams⟩ := Block.jams_of_farMarker (p := .empty)
    (b := ⟨"z", 0, 0, .contact, false, .normal, Project.farMarker, none⟩) rfl rfl
    (List.forall_mem_nil _) (by decide) hmemory
  refine ⟨List.forall_mem_cons.2 ⟨hresolves, by decide +kernel⟩, by decide +kernel,
    by decide +kernel, rfl, ?_, ?_⟩
  · rw [blocks_evaluate_of_jams rfl hjams]
    rfl
  · rw [blocks_evaluate_of_jams rfl hjams]
    rfl

end Network

end LadderMonitor
