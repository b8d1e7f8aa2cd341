import LadderMonitor.Monitor.State
import LadderMonitor.Proofs.Monitor.Move
import Mathlib.Data.List.Nodup

namespace LadderMonitor

namespace Poller

/-- Tasks have numbers of their own, below the next one; every task but the current one is cancelled
or inside a tick. -/
structure Sound (p : Poller) : Prop where
  ids : (p.tasks.map (·.id)).Nodup
  known : ∀ t ∈ p.tasks, t.id < p.nextId
  current : ∀ id, p.current = some id → id < p.nextId
  stale : ∀ t ∈ p.tasks, p.current ≠ some t.id → t.phase = .cancelled ∨ t.phase = .ticking

variable {p : Poller} {id : Nat}

theorem mem_setPhase {phase : Phase} {t : PollTask} :
    t ∈ (p.setPhase id phase).tasks ↔
      (∃ old ∈ p.tasks, old.id = id ∧ t = ⟨id, phase⟩) ∨ t ∈ p.tasks ∧ t.id ≠ id := by
  unfold setPhase
  simp only [List.mem_map]
  constructor
  · rintro ⟨old, hold, rfl⟩
    split
    · rename_i heq
      exact .inl ⟨old, hold, heq, by rw [← heq]⟩
    · exact .inr ⟨hold, ‹_›⟩
  · rintro (⟨old, hold, rfl, rfl⟩ | ⟨hmem, hne⟩)
    · exact ⟨old, hold, by simp⟩
    · exact ⟨t, hmem, by simp [hne]⟩

theorem map_id_setPhase (p : Poller) (id : Nat) (phase : Phase) :
    (p.setPhase id phase).tasks.map (·.id) = p.tasks.map (·.id) := by
  unfold setPhase
  rw [List.map_map]
  refine List.map_congr_left fun t _ => ?_
  simp only [Function.comp_apply]
  split <;> rfl

theorem mem_finish {t : PollTask} : t ∈ (p.finish id).tasks ↔ t ∈ p.tasks ∧ t.id ≠ id := by
  simp [finish]

theorem mem_launch {t : PollTask} :
    t ∈ p.launch.tasks ↔ t ∈ p.tasks ∨ t = ⟨p.nextId, .created⟩ := by
  simp [launch]

@[simp] theorem current_halt (p : Poller) : p.halt.current = none := by
  unfold halt
  split
  · assumption
  · split <;> rfl

@[simp] theorem nextId_halt (p : Poller) : p.halt.nextId = p.nextId := by
  unfold halt
  split
  · rfl
  · split <;> rfl

/-- Stopping touches no task but the current one. -/
theorem mem_of_mem_halt_of_ne {t : PollTask} (ht : t ∈ p.halt.tasks)
    (hother : p.current ≠ some t.id) : t ∈ p.tasks := by
  unfold halt at ht
  split at ht
  · exact ht
  · rename_i id hcurrent
    split at ht
    · exact ht
    · exact ht
    · rcases mem_setPhase.1 ht with ⟨_, _, _, rfl⟩ | ⟨hmem, -⟩
      · exact absurd hcurrent hother
      · exact hmem

/-- Stopping puts no task into a tick. -/
theorem mem_of_mem_halt {t : PollTask} (ht : t ∈ p.halt.tasks) (hphase : t.phase = .ticking) :
    t ∈ p.tasks := by
  unfold halt at ht
  split at ht
  · exact ht
  · split at ht
    · exact ht
    · exact ht
    · rcases mem_setPhase.1 ht with ⟨_, _, _, rfl⟩ | ⟨hmem, -⟩
      · cases hphase
      · exact hmem

namespace Sound

theorem eq_of_id (h : p.Sound) {t t' : PollTask} (ht : t ∈ p.tasks) (ht' : t' ∈ p.tasks)
    (hid : t.id = t'.id) : t = t' :=
  List.inj_on_of_nodup_map h.ids ht ht' hid

/-- When nothing polls, no task is relied on. -/
theorem launch (h : p.Sound) (hidle : p.running = false) : p.launch.Sound where
  ids := by
    rw [Poller.launch, List.map_append, List.nodup_append]
    refine ⟨h.ids, by simp, ?_⟩
    rintro id hid _ hnew rfl
    obtain ⟨t, ht, rfl⟩ := List.mem_map.1 hid
    have hknown := h.known t ht
    simp only [List.map_cons, List.map_nil, List.mem_singleton] at hnew
    omega
  known := by
    intro t ht
    rcases mem_launch.1 ht with ht | rfl
    · exact Nat.lt_succ_of_lt (h.known t ht)
    · exact Nat.lt_succ_self _
  current := by
    rintro id heq
    obtain rfl := Option.some.inj heq
    exact Nat.lt_succ_self _
  stale := by
    intro t ht hstale
    rcases mem_launch.1 ht with ht | rfl
    · refine h.stale t ht fun hcurrent => ?_
      have hnone : (p.tasks.any fun t' => t'.id == t.id) = false := by
        simpa [running, hcurrent] using hidle
      simpa using List.any_eq_false.1 hnone t ht
    · exact absurd rfl hstale

theorem setPhase (h : p.Sound) (hcurrent : p.current = some id) (phase : Phase) :
    (p.setPhase id phase).Sound where
  ids := by
    rw [map_id_setPhase]
    exact h.ids
  known := by
    intro t ht
    rcases mem_setPhase.1 ht with ⟨old, hold, rfl, rfl⟩ | ⟨hmem, -⟩
    · exact h.known old hold
    · exact h.known t hmem
  current := h.current
  stale := by
    intro t ht hstale
    rcases mem_setPhase.1 ht with ⟨old, hold, rfl, rfl⟩ | ⟨hmem, -⟩
    · exact absurd hcurrent hstale
    · exact h.stale t hmem hstale

theorem finish (h : p.Sound) (id : Nat) : (p.finish id).Sound where
  ids := h.ids.sublist (List.filter_sublist.map _)
  known := fun t ht => h.known t (mem_finish.1 ht).1
  current := h.current
  stale := fun t ht => h.stale t (mem_finish.1 ht).1

/-- The current task ends by itself, and polling relies on no task. -/
theorem leave (h : p.Sound) (hcurrent : p.current = some id) :
    Sound { p.finish id with current := none } where
  ids := (h.finish id).ids
  known := (h.finish id).known
  current := by simp
  stale := by
    intro t ht _
    obtain ⟨hmem, hne⟩ := mem_finish.1 ht
    refine h.stale t hmem fun heq => hne ?_
    exact Option.some.inj (heq.symm.trans hcurrent)

theorem halt (h : p.Sound) : p.halt.Sound := by
  unfold Poller.halt
  cases hcurrent : p.current with
  | none => exact h
  | some id =>
    have hstale {t : PollTask} (ht : t ∈ p.tasks) (hne : t.id ≠ id) :
        t.phase = .cancelled ∨ t.phase = .ticking :=
      h.stale t ht fun heq => hne (Option.some.inj (heq.symm.trans hcurrent))
    have hrest (hphase : ∀ t ∈ p.tasks, t.id = id → t.phase = .ticking) :
        Sound { p with current := none } := by
      refine ⟨h.ids, h.known, by simp, fun t ht _ => ?_⟩
      by_cases heq : t.id = id
      · exact .inr (hphase t ht heq)
      · exact hstale ht heq
    simp only
    split
    · rename_i hgone
      refine hrest fun t ht heq => ?_
      simp only [phase?, Option.map_eq_none_iff, List.find?_eq_none] at hgone
      simpa [heq] using hgone t ht
    · rename_i hticking
      refine hrest fun t ht heq => ?_
      simp only [phase?, Option.map_eq_some_iff] at hticking
      obtain ⟨t', hfind, hphase⟩ := hticking
      have hid : t'.id = id := by simpa using List.find?_some hfind
      rw [h.eq_of_id ht (List.mem_of_find?_eq_some hfind) (heq.trans hid.symm)]
      exact hphase
    · refine ⟨by rw [map_id_setPhase]; exact h.ids, ?_, by simp [Poller.setPhase], ?_⟩
      · intro t ht
        rcases mem_setPhase.1 ht with ⟨old, hold, rfl, rfl⟩ | ⟨hmem, -⟩
        · exact h.known old hold
        · exact h.known t hmem
      · intro t ht _
        rcases mem_setPhase.1 ht with ⟨old, hold, rfl, rfl⟩ | ⟨hmem, hne⟩
        · exact .inl rfl
        · exact hstale hmem hne

/-- Tasks that end, or are new and go to sleep, leave the others as they are. -/
theorem filterMap (h : p.Sound) {change : PollTask → Option PollTask}
    (hchange : ∀ t t', change t = some t' →
      t'.id = t.id ∧ (t' = t ∨ t.phase = .created ∧ t'.phase.isSleeping)) :
    Sound { p with tasks := p.tasks.filterMap change } where
  ids := by
    refine h.ids.sublist ?_
    generalize p.tasks = tasks
    induction tasks with
    | nil => exact .slnil
    | cons t rest ih =>
      cases heq : change t with
      | none =>
        rw [List.filterMap_cons_none heq, List.map_cons]
        exact ih.cons t.id
      | some t' =>
        rw [List.filterMap_cons_some heq, List.map_cons, List.map_cons, (hchange t t' heq).1]
        exact ih.cons_cons t.id
  known := by
    intro t' ht'
    obtain ⟨t, ht, heq⟩ := List.mem_filterMap.1 ht'
    rw [(hchange t t' heq).1]
    exact h.known t ht
  current := h.current
  stale := by
    intro t' ht' hstale
    obtain ⟨t, ht, heq⟩ := List.mem_filterMap.1 ht'
    obtain ⟨hid, rfl | ⟨hcreated, -⟩⟩ := hchange t t' heq
    · exact h.stale t' ht hstale
    · rw [hid] at hstale
      rcases h.stale t ht hstale with hphase | hphase <;> rw [hcreated] at hphase <;> cases hphase

end Sound

end Poller

end LadderMonitor
