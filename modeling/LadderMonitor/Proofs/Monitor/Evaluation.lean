import LadderMonitor.Monitor.Display

namespace LadderMonitor

theorem Workspace.network?_modify (w : Workspace) (net other : Nat) (change : Network → Network) :
    (w.modify net change).network? other =
      (w.network? other).map fun n => if net = other then change n else n := by
  unfold modify network? networks
  by_cases hown : net < w.project.networks.length
  · simp only [if_pos hown, List.getElem?_append, List.length_modify, List.getElem?_modify]
    split
    · rfl
    · have hne : net ≠ other := by omega
      simp [hne]
  · simp only [if_neg hown, List.getElem?_append, List.getElem?_modify]
    split
    · have hne : net ≠ other := by omega
      simp [hne]
    · have hplace : net - w.project.networks.length = other - w.project.networks.length ↔
          net = other := by omega
      simp only [hplace]
      rfl

namespace Monitor

variable {m : Monitor} {net : Nat}

theorem evaluate_of_active (hactive : m.askActive.1 = .ok true) :
    m.evaluate net =
      match m.workspace.network? net with
      | none => ({ m.note (.evaluated net) with active := m.askActive.2.active }, none)
      | some n =>
        (modifyNetwork net (fun _ => (n.evaluate m.project m.cache).1)
          { m.note (.evaluated net) with active := m.askActive.2.active },
          (n.evaluate m.project m.cache).2) := by
  have hasked : (m.note (.evaluated net)).askActive =
      (.ok true, { m.note (.evaluated net) with active := m.askActive.2.active }) :=
    Prod.ext hactive rfl
  have hworkspace : workspace { m.note (.evaluated net) with active := m.askActive.2.active } =
      m.workspace := rfl
  unfold evaluate
  rw [hasked]
  simp only [hworkspace]
  cases m.workspace.network? net <;> rfl

end Monitor

end LadderMonitor
