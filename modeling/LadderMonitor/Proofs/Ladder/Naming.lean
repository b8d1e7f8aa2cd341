import LadderMonitor.Proofs.Ladder.Propagation

namespace LadderMonitor

def Block.powered (b : Block) : Bool := b.state.any (·.powered)

def Block.evaluated (b : Block) : Bool := b.state.any (·.evaluated)

def Wire.powered (w : Wire) : Bool := w.state.any (·.powered)

namespace Network

variable {n shown : Network} {id : String} {i j : Nat} {b : Block} {w : Wire}

/-- The position of the block that a look-up of an id finds: the first one with the id. -/
def finder? (n : Network) (id : String) : Option Nat := n.blocks.findIdx? (·.id == id)

theorem block?_eq (n : Network) (id : String) :
    n.block? id = (n.finder? id).bind (n.blocks[·]?) :=
  List.find?_eq_bind_findIdx?_getElem?

/-- Whether an id is borne by at most one block. -/
def Unambiguous (n : Network) (id : String) : Prop :=
  ∀ i j : Nat, n.ids[i]? = some id → n.ids[j]? = some id → i = j

theorem finder?_eq_some_iff :
    n.finder? id = some i ↔ n.ids[i]? = some id ∧ ∀ j, j < i → n.ids[j]? ≠ some id := by
  unfold finder?
  rw [List.findIdx?_eq_some_iff_getElem]
  constructor
  · rintro ⟨hi, hbears, hfirst⟩
    refine ⟨getElem?_ids_eq_some_iff.2 ⟨n.blocks[i], List.getElem?_eq_getElem hi,
      by simpa using hbears⟩, fun j hj hid => ?_⟩
    obtain ⟨b, hblock, hb⟩ := getElem?_ids_eq_some_iff.1 hid
    obtain ⟨hjlt, rfl⟩ := List.getElem?_eq_some_iff.1 hblock
    exact hfirst j hj (by simpa using hb)
  · rintro ⟨hid, hfirst⟩
    obtain ⟨b, hblock, hb⟩ := getElem?_ids_eq_some_iff.1 hid
    obtain ⟨hi, rfl⟩ := List.getElem?_eq_some_iff.1 hblock
    refine ⟨hi, by simpa using hb, fun j hj => ?_⟩
    have hother := hfirst j hj
    rw [ne_eq, getElem?_ids_eq_some_iff] at hother
    intro hbears
    exact hother ⟨n.blocks[j], List.getElem?_eq_getElem (Nat.lt_trans hj hi), by simpa using hbears⟩

/-- The look-up and the wiring agree on an id exactly if it is borne by at most one block. -/
theorem finder?_eq_holder?_iff : n.finder? id = n.holder? id ↔ n.Unambiguous id := by
  constructor
  · intro hsame i j hi hj
    obtain ⟨k, hk⟩ := Option.isSome_iff_exists.1 (holder?_isSome_of_ids hi)
    obtain ⟨-, hlast⟩ := ids_of_holder hk
    obtain ⟨-, hfirst⟩ := finder?_eq_some_iff.1 (hsame.trans hk)
    -- Every bearer is neither before nor behind the one that both name.
    have hbearer {l : Nat} (hl : n.ids[l]? = some id) : l = k := by
      rcases Nat.lt_trichotomy l k with hlt | heq | hgt
      · exact absurd hl (hfirst l hlt)
      · exact heq
      · exact absurd hl (hlast l hgt)
    rw [hbearer hi, hbearer hj]
  · intro halone
    cases hholder : n.holder? id with
    | some i =>
      obtain ⟨hid, -⟩ := ids_of_holder hholder
      refine finder?_eq_some_iff.2 ⟨hid, fun j hj hother => ?_⟩
      exact Nat.ne_of_lt hj (halone j i hother hid)
    | none =>
      cases hfinder : n.finder? id with
      | none => rfl
      | some i =>
        have hsome := holder?_isSome_of_ids (finder?_eq_some_iff.1 hfinder).1
        rw [hholder] at hsome
        cases hsome

/-- An id that one block bears is looked up as that block. -/
theorem Unambiguous.block?_eq (h : n.Unambiguous id) (hblock : n.blocks[i]? = some b)
    (hid : b.id = id) : n.block? id = some b := by
  have hbears : n.ids[i]? = some id := hid ▸ ids_of_block hblock
  have hfinder : n.finder? id = some i :=
    finder?_eq_some_iff.2 ⟨hbears, fun j hj hother => Nat.ne_of_lt hj (h j i hother hbears)⟩
  rw [Network.block?_eq, hfinder, Option.bind_some, hblock]

/-- A wire that is powered leads from a block that has passed power on, and it does not lead to
nowhere. -/
theorem ShowsPower.of_powered (h : shown.ShowsPower) (hwire : w ∈ shown.wires)
    (hpowered : w.powered) :
    shown.Bears w.target ∧ ∃ b ∈ shown.blocks, b.id = w.source ∧ b.evaluated := by
  obtain ⟨s, hstate, -, hpower⟩ := h.wire w hwire
  have hs : s.powered := by simpa [Wire.powered, hstate] using hpowered
  obtain ⟨⟨-, htarget⟩, b, hb, hid, t, ht, hevaluated⟩ := hpower.1 hs
  exact ⟨htarget, b, hb, hid, by simp [Block.evaluated, ht, hevaluated]⟩

/-- Power that takes a wire arrives at the last block that bears the id of its target. -/
theorem ShowsPower.powered_target (h : shown.ShowsPower) (hwire : w ∈ shown.wires)
    (hpowered : w.powered) :
    ∃ i b, shown.holder? w.target = some i ∧ shown.blocks[i]? = some b ∧ b.powered := by
  obtain ⟨htarget, b, hb, hid, hevaluated⟩ := h.of_powered hwire hpowered
  obtain ⟨i, hblock⟩ := List.getElem?_of_mem hb
  obtain ⟨t, ht, -, hfired, -⟩ := h.block i b hblock
  obtain ⟨hreached, hconducts⟩ := hfired.1 (by simpa [Block.evaluated, ht] using hevaluated)
  have hfires : b.fires := by simpa [Block.fires, Block.stateOrFresh, ht] using hconducts
  obtain ⟨j, hholder⟩ := Option.isSome_iff_exists.1 (holder?_isSome_iff.2 htarget)
  obtain ⟨b', hblock', -⟩ := getElem?_ids_eq_some_iff.1 (ids_of_holder hholder).1
  have hreached' : shown.Reached j := hreached.wire hblock hfires hwire hid.symm hholder
  obtain ⟨t', ht', hshown, -⟩ := h.block j b' hblock'
  exact ⟨j, b', hholder, hblock', by simp [Block.powered, ht', hshown.2 hreached']⟩

/-- After an evaluation, some block of the id of its source has passed power on to a wire that is
powered, and the block that the wiring holds under the id of its target is powered. A look-up of
these ids finds such blocks as far as they are borne by one block: on exactly those ids the look-up
and the wiring agree. -/
theorem evaluate_agrees_on_ids {p : Project} {memory : Bytes}
    (heval : n.evaluate p memory = (shown, none)) :
    (∀ id, shown.finder? id = shown.holder? id ↔ shown.Unambiguous id) ∧
      ∀ w ∈ shown.wires, w.powered →
        (∃ b ∈ shown.blocks, b.id = w.source ∧ b.evaluated) ∧
        (∃ i b, shown.holder? w.target = some i ∧ shown.blocks[i]? = some b ∧ b.powered) ∧
        (shown.Unambiguous w.target → ∃ b, shown.block? w.target = some b ∧ b.powered) ∧
        (shown.Unambiguous w.source → ∃ b, shown.block? w.source = some b ∧ b.evaluated) := by
  have hshows : shown.ShowsPower := showsPower_of_evaluate heval
  refine ⟨fun id => finder?_eq_holder?_iff, fun w hwire hpowered => ?_⟩
  obtain ⟨-, hsource⟩ := hshows.of_powered hwire hpowered
  have htarget := hshows.powered_target hwire hpowered
  refine ⟨hsource, htarget, fun halone => ?_, fun halone => ?_⟩
  · obtain ⟨i, b, hholder, hblock, hb⟩ := htarget
    have hid : b.id = w.target := by
      have hids := (ids_of_holder hholder).1
      rw [ids_of_block hblock] at hids
      exact Option.some.inj hids
    exact ⟨b, halone.block?_eq hblock hid, hb⟩
  · obtain ⟨b, hmem, hid, hb⟩ := hsource
    obtain ⟨i, hblock⟩ := List.getElem?_of_mem hmem
    exact ⟨b, halone.block?_eq hblock hid, hb⟩

/-- A contact on the rail is wired to an id that two contacts behind it bear. -/
def twinContacts : Network where
  name := ""
  comment := ""
  blocks := [⟨"a", 0, 0, .contact, false, .normal, "0.0", none⟩,
    ⟨"b", 1, 0, .contact, false, .normal, "", none⟩,
    ⟨"b", 2, 0, .contact, false, .normal, "", none⟩]
  wires := [⟨"a", "b", none⟩]

/-- The twins after they have been reset against a byte whose lowest bit is set. -/
def resetTwins : Network where
  name := ""
  comment := ""
  blocks := [⟨"a", 0, 0, .contact, false, .normal, "0.0",
      some { active := true, powered := true, resolved := some ⟨0, 1, some 0, .bit⟩ }⟩,
    ⟨"b", 1, 0, .contact, false, .normal, "", some {}⟩,
    ⟨"b", 2, 0, .contact, false, .normal, "", some {}⟩]
  wires := [⟨"a", "b", some {}⟩]

theorem flow_resetTwins : resetTwins.flow = ⟨[2, 0], [0], [0]⟩ := by
  have hstays : ¬ resetTwins.FiresAt 2 := by
    rintro ⟨b, hblock, hb⟩
    obtain rfl := Option.some.inj hblock
    cases hb
  have hends : resetTwins.Propagates {} [0] ⟨[2, 0], [0], [0]⟩ :=
    .fire ⟨_, rfl, rfl⟩ List.not_mem_nil (.stay (fun h => absurd h hstays) .done) .done
  exact hends.eq_flow.symm

theorem evaluate_twinContacts :
    twinContacts.evaluate .empty #[1] = (resetTwins.display ⟨[2, 0], [0], [0]⟩, none) := by
  have hreset : resetBlocks .empty #[1] twinContacts.blocks = (resetTwins.blocks, none) := by
    decide +kernel
  rw [← flow_resetTwins, evaluate, hreset]
  rfl

theorem evaluate_agrees_on_twinContacts :
    ∃ shown, twinContacts.evaluate .empty #[1] = (shown, none) ∧
      shown.wires.map Wire.powered = [true] ∧ shown.Unambiguous "a" ∧
      (∃ b, shown.block? "a" = some b ∧ b.evaluated) ∧
      ∃ i b, shown.holder? "b" = some i ∧ shown.blocks[i]? = some b ∧ b.powered := by
  refine ⟨_, evaluate_twinContacts, by decide, ?_⟩
  obtain ⟨hnames, hwires⟩ := evaluate_agrees_on_ids evaluate_twinContacts
  have halone : (resetTwins.display ⟨[2, 0], [0], [0]⟩).Unambiguous "a" :=
    (hnames "a").1 (by decide)
  obtain ⟨-, htarget, -, hsource⟩ := hwires ⟨"a", "b", some ⟨true, true⟩⟩ (by decide) (by decide)
  exact ⟨halone, hsource halone, htarget⟩

/-- The network of the twins is accepted. After an evaluation its wire is powered, but the block
that a look-up of the target finds is not. -/
theorem twin_target_not_powered :
    ofDocument (.object [("blocks", .list [.object [("id", .text "a"), ("symbol", .text "0.0")],
        .object [("id", .text "b"), ("x", .int 1)], .object [("id", .text "b"), ("x", .int 2)]]),
      ("connections", .list [.object [("from", .text "a"), ("to", .text "b")]])]) =
        .ok twinContacts ∧
      ∃ shown, twinContacts.evaluate .empty #[1] = (shown, none) ∧
        shown.wires.map Wire.powered = [true] ∧
        (shown.block? "b").map Block.powered = some false :=
  ⟨rfl, _, evaluate_twinContacts, by decide, by decide⟩

end Network

end LadderMonitor
