import LadderMonitor.Proofs.Monitor.Foreign
import Mathlib.Data.Set.Insert

namespace LadderMonitor

/-- A range that somebody wants on behalf of a requester. -/
abbrev Subscription := RegistrationKey × Subscriber

namespace Registry

def subscriptions (registry : Registry) : Set Subscription := {x | registry.Holds x.1 x.2}

/-- A registry that represents a set of subscriptions. It has one registration for each key, never
without subscribers: those of the key. The range of a registration is that of its key; it is one
that can be polled, and it is what is read, however reads are gathered. -/
structure Represents (registry : Registry) (held : Set Subscription) : Prop where
  subscriptions : registry.subscriptions = held
  keys : (registry.map (·.key)).Nodup
  nonempty : ∀ r ∈ registry, r.subscribers ≠ []
  subscribers : ∀ r ∈ registry, ∀ s, s ∈ r.subscribers ↔ (r.key, s) ∈ held
  bounds : ∀ r ∈ registry,
    r.range.start = r.key.range.start ∧ r.range.size = r.key.range.size
  ranges : ∀ r ∈ registry, 0 ≤ r.key.range.start ∧ 0 < r.key.range.size
  read : ∀ gapThreshold maxSize, ∀ r ∈ registry, ∃ b ∈ registry.batches gapThreshold maxSize,
    r ∈ b.items ∧ b.start ≤ r.key.range.start ∧ r.key.range.stop ≤ b.stop

variable {registry : Registry}

theorem Sound.represents (h : registry.Sound) : registry.Represents registry.subscriptions where
  subscriptions := rfl
  keys := h.keys
  nonempty := fun r hr => (h.subscribers r hr).1
  subscribers := by
    refine fun r hr s => ⟨fun hs => ⟨r, hr, rfl, hs⟩, ?_⟩
    rintro ⟨r', hr', hkey, hs⟩
    rwa [← h.eq_of_key hr' hr hkey]
  bounds := by
    intro r _
    rw [r.range_eq]
    exact ⟨rfl, rfl⟩
  ranges := h.ranges
  read := by
    intro gapThreshold maxSize r hr
    obtain ⟨b, hb, hitem⟩ := mem_batches_items.2 hr
    exact ⟨b, hb, hitem, (covers_of_mem_batches hb).inside r hitem⟩

end Registry

namespace Monitor

variable {m : Monitor} {key : RegistrationKey} {s : Subscriber}

/-- What a move makes of the subscriptions that are held. -/
def Move.subscriptions (held : Set Subscription) : Move → Set Subscription
  | register key s =>
    if 0 ≤ key.range.start ∧ 0 < key.range.size then insert (key, s) held else held
  | unregister key s => held \ {(key, s)}
  | unregisterAll requester => {x ∈ held | x.1.requester ≠ requester}
  | _ => held

theorem subscriptions_register (m : Monitor) (key : RegistrationKey) (s : Subscriber) :
    (m.register key s).1.registry.subscriptions =
      (Move.register key s).subscriptions m.registry.subscriptions := by
  ext ⟨k, s'⟩
  change (m.register key s).1.registry.Holds k s' ↔ _
  rw [holds_register, Move.subscriptions]
  split
  · rename_i hrange
    rw [Set.mem_insert_iff, Prod.mk.injEq, and_iff_left hrange]
    rfl
  · rename_i hrange
    simp only [hrange, and_false, false_or]
    rfl

/-- Each move does to the registry what it does to the subscriptions. -/
theorem subscriptions_move (h : m.registry.Sound) (v : Move) :
    (m.move v).registry.subscriptions = v.subscriptions m.registry.subscriptions := by
  cases v with
  | register key s => exact m.subscriptions_register key s
  | unregister key s =>
    obtain ⟨_, heq⟩ := m.unregister_eq key s
    ext ⟨k, s'⟩
    rw [move, heq]
    change Registry.Holds _ k s' ↔ _
    rw [h.holds_remove, ← Prod.mk.injEq]
    rfl
  | unregisterAll requester =>
    obtain ⟨_, heq⟩ := m.unregisterAll_eq requester
    ext ⟨k, s'⟩
    rw [move, heq]
    exact Registry.holds_removeAll
  | _ => rw [(records_move_of_spares rfl m).1]; rfl

theorem Reachable.represents_run (h : m.Reachable) (moves : List Move) :
    (m.run moves).registry.Represents
      (moves.foldl Move.subscriptions m.registry.subscriptions) := by
  induction moves generalizing m with
  | nil => exact h.sound.registry.represents
  | cons v rest ih =>
    rw [List.foldl_cons, ← subscriptions_move h.sound.registry v]
    exact ih (h.move v)

/-- An unusable range is ignored altogether. -/
theorem register_of_unusable (m : Monitor) (s : Subscriber)
    (hrange : ¬ (0 ≤ key.range.start ∧ 0 < key.range.size)) : m.register key s = (m, none) := by
  rw [register, if_pos (by simp; omega)]

/-- A registration does not fail unless the question whether monitoring is active does. -/
theorem register_returns (key : RegistrationKey) (s : Subscriber)
    (hasked : ∀ fault, m.askActive.1 ≠ .error fault) : (m.register key s).2 = none := by
  have hentered : (m.enter key s).askActive.1 = m.askActive.1 := rfl
  rw [← hentered] at hasked
  unfold register
  split
  · rfl
  · unfold startIfActive
    split
    · rfl
    · split
      · rfl
      · rfl
      · rename_i fault _ hfailed
        exact absurd (congrArg Prod.fst hfailed) (hasked fault)

/-- Whatever is registered and removed, and whatever happens meanwhile, the registry represents the
set of subscriptions that the same calls make of the empty set. A registration under a range that
cannot be polled changes nothing else either, and others return as long as it can be told whether
monitoring is active. -/
theorem Fresh.registry_represents_subscriptions (h : m.Fresh) (moves : List Move) :
    (m.run moves).registry.Represents (moves.foldl Move.subscriptions ∅) ∧
      ∀ key s, (¬ (0 ≤ key.range.start ∧ 0 < key.range.size) →
          (m.run moves).register key s = (m.run moves, none)) ∧
        ((∀ fault, (m.run moves).askActive.1 ≠ .error fault) →
          ((m.run moves).register key s).2 = none) := by
  have hempty : m.registry.subscriptions = ∅ := by
    rw [h.registry]
    exact Set.eq_empty_of_forall_notMem fun _ => Registry.not_holds_nil
  refine ⟨?_, fun key s => ⟨register_of_unusable _ s, register_returns key s⟩⟩
  rw [← hempty]
  exact (Reachable.fresh h).represents_run moves

/-- Calls in the names of requesters of which one begins like the other: a subscription that is made
twice, the removal of one that there is not, an empty range, and a removal followed by a new
registration. -/
def callsOfNamesakes : List Move :=
  [.register ⟨.named "a", ⟨0, 2⟩⟩ (.outside "x"), .register ⟨.named "ab", ⟨0, 2⟩⟩ (.outside "x"),
    .register ⟨.named "ab", ⟨0, 2⟩⟩ (.outside "x"),
    .unregister ⟨.named "ab", ⟨0, 2⟩⟩ (.outside "y"), .register ⟨.named "a", ⟨4, 0⟩⟩ (.outside "x"),
    .unregisterAll (.named "a"), .register ⟨.named "a", ⟨0, 2⟩⟩ (.outside "y")]

theorem registry_represents_callsOfNamesakes :
    (create {} {}).Fresh ∧
      ((create {} {}).run callsOfNamesakes).registry.Represents
        {(⟨.named "a", ⟨0, 2⟩⟩, .outside "y"), (⟨.named "ab", ⟨0, 2⟩⟩, .outside "x")} ∧
      ((create {} {}).run callsOfNamesakes).register ⟨.named "a", ⟨4, 0⟩⟩ (.outside "x") =
        ((create {} {}).run callsOfNamesakes, none) ∧
      (((create {} {}).run callsOfNamesakes).register ⟨.named "a", ⟨4, 1⟩⟩ (.outside "x")).2 =
        none := by
  have hfresh : (create {} {}).Fresh := fresh_create {} {}
  have hheld : callsOfNamesakes.foldl Move.subscriptions ∅ =
      {(⟨.named "a", ⟨0, 2⟩⟩, .outside "y"), (⟨.named "ab", ⟨0, 2⟩⟩, .outside "x")} := by
    ext ⟨k, s⟩
    have hother : (k = ⟨.named "ab", ⟨0, 2⟩⟩ ∧ s = .outside "x" ∨
        k = ⟨.named "a", ⟨0, 2⟩⟩ ∧ s = .outside "x") ∧ k.requester ≠ .named "a" ↔
          k = ⟨.named "ab", ⟨0, 2⟩⟩ ∧ s = .outside "x" := by
      grind
    simpa [callsOfNamesakes, Move.subscriptions] using or_congr_right hother
  obtain ⟨hrepresents, hcalls⟩ := hfresh.registry_represents_subscriptions callsOfNamesakes
  rw [hheld] at hrepresents
  have hasked : ((create {} {}).run callsOfNamesakes).askActive.1 = .ok true := rfl
  refine ⟨hfresh, hrepresents, (hcalls _ _).1 (by decide), (hcalls _ _).2 fun fault hfault => ?_⟩
  rw [hasked] at hfault
  cases hfault

end Monitor

end LadderMonitor
