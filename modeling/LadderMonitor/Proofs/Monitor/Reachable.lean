import LadderMonitor.Proofs.Monitor.Inner
import LadderMonitor.Proofs.Monitor.PollStep

namespace LadderMonitor.Monitor

/-- Nothing has been registered yet, and nothing polls. The settings, the device, the predicates,
the memory, the cursor and the display may be any. -/
structure Fresh (m : Monitor) : Prop where
  registry : m.registry = []
  ticks : m.ticks = []
  poller : m.poller = {}
  listeners : m.listeners.Nodup

theorem fresh_create (settings : Settings) (device : Device) : (create settings device).Fresh :=
  ⟨rfl, rfl, rfl, .nil⟩

theorem fresh_createDisplay (settings : Settings) (device : Device) (workspace : Workspace) :
    (createDisplay settings device workspace).Fresh :=
  ⟨rfl, rfl, rfl, List.nodup_singleton _⟩

/-- The states that a monitor gets into by moves in any order. -/
inductive Reachable : Monitor → Prop where
  | fresh {m : Monitor} (hfresh : m.Fresh) : Reachable m
  | move {m : Monitor} (h : Reachable m) (v : Move) : Reachable (m.move v)

theorem Reachable.run {m : Monitor} (h : m.Reachable) (moves : List Move) :
    (m.run moves).Reachable := by
  induction moves generalizing m with
  | nil => exact h
  | cons v rest ih => exact ih (h.move v)

/-- Moves lead from one state to another. -/
abbrev Runs : Monitor → Monitor → Prop := LeadsBy fun _ => true

theorem Reachable.of_runs {m m' : Monitor} (h : m.Reachable) (hruns : m.Runs m') :
    m'.Reachable := by
  obtain ⟨moves, -, rfl⟩ := hruns
  exact h.run moves

theorem LeadsBy.runs {allowed : Move → Bool} {m m' : Monitor} (h : LeadsBy allowed m m') :
    m.Runs m' :=
  h.mono fun _ _ => rfl

/-- Calls do not touch the ticks in flight. -/
theorem Leads.frame {m m' : Monitor} (h : m.Leads m') : Frame m m' := by
  obtain ⟨moves, hinner, rfl⟩ := h
  induction moves generalizing m with
  | nil => exact ⟨rfl, rfl, Nat.le_refl _⟩
  | cons v rest ih =>
    obtain ⟨hv, hrest⟩ := List.forall_mem_cons.1 hinner
    exact (frame_of_inner hv m).trans (ih hrest)

theorem Runs.nextStamp_le {m m' : Monitor} (h : m.Runs m') : m.nextStamp ≤ m'.nextStamp := by
  obtain ⟨moves, -, rfl⟩ := h
  induction moves generalizing m with
  | nil => exact Nat.le_refl _
  | cons v rest ih => exact Nat.le_trans (m.nextStamp_le_move v) ih

theorem Runs.settings {m m' : Monitor} (h : m.Runs m') : m'.settings = m.settings := by
  obtain ⟨moves, -, rfl⟩ := h
  induction moves generalizing m with
  | nil => rfl
  | cons v rest ih => exact ih.trans (m.settings_move v)

/-- What those outside do never changes. -/
theorem Runs.reactions {m m' : Monitor} (h : m.Runs m') : m'.reactions = m.reactions := by
  obtain ⟨moves, -, rfl⟩ := h
  induction moves generalizing m with
  | nil => rfl
  | cons v rest ih => exact ih.trans (m.spared_move v).reactions

/-- The cache never grows or shrinks. -/
theorem Runs.size_cache {m m' : Monitor} (h : m.Runs m') : m'.cache.size = m.cache.size := by
  obtain ⟨moves, -, rfl⟩ := h
  induction moves generalizing m with
  | nil => rfl
  | cons v rest ih =>
    refine ih.trans ?_
    cases v with
    | clear => exact Array.size_replicate
    | store start data => exact Bytes.size_overwrite _ _ _
    | _ => rw [(m.spared_move _).cache rfl]

theorem LeadsGently.cache {m m' : Monitor} (h : m.LeadsGently m') : m'.cache = m.cache := by
  obtain ⟨moves, hgentle, rfl⟩ := h
  induction moves generalizing m with
  | nil => rfl
  | cons v rest ih =>
    obtain ⟨hv, hrest⟩ := List.forall_mem_cons.1 hgentle
    rw [Move.gentle, Bool.and_eq_true, Bool.not_eq_true'] at hv
    exact (ih hrest).trans ((m.spared_move v).cache hv.2)

/-- Calls zero the cache or leave it alone. -/
theorem Leads.cache {m m' : Monitor} (h : m.Leads m') :
    m'.cache = m.cache ∨ m'.cache = .zeros m.cache.size := by
  obtain ⟨moves, hinner, rfl⟩ := h
  induction moves generalizing m with
  | nil => exact .inl rfl
  | cons v rest ih =>
    obtain ⟨hv, hrest⟩ := List.forall_mem_cons.1 hinner
    have hfirst : (m.move v).cache = m.cache ∨ (m.move v).cache = .zeros m.cache.size := by
      cases v with
      | clear => exact .inr rfl
      | store => cases hv
      | _ => exact .inl ((m.spared_move _).cache rfl)
    have hsize : (m.move v).cache.size = m.cache.size := by
      rcases hfirst with heq | heq <;> simp [heq, Bytes.zeros]
    rcases ih hrest with hkept | hzeroed
    · rcases hfirst with heq | heq
      · exact .inl (hkept.trans heq)
      · exact .inr (hkept.trans heq)
    · rw [hsize] at hzeroed
      exact .inr hzeroed

end LadderMonitor.Monitor
