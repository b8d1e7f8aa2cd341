import LadderMonitor.Fault

namespace LadderMonitor

variable {α β : Type} {x : Except Fault α}

theorem bind_eq_ok_iff {next : α → Except Fault β} {b : β} :
    x >>= next = .ok b ↔ ∃ a, x = .ok a ∧ next a = .ok b := by
  cases x <;> simp [bind, Except.bind]

theorem bind_ok_eq_error_iff {f : α → β} {fault : Fault} :
    (x >>= fun a => .ok (f a)) = .error fault ↔ x = .error fault := by
  cases x <;> simp [bind, Except.bind]

theorem forall_mem_toOption_join {x : Except Fault (Option α)} {P : α → Prop} :
    (∀ a ∈ x.toOption.join, P a) ↔ ∀ a, x = .ok (some a) → P a := by
  cases x <;> simp [Except.toOption]

end LadderMonitor
