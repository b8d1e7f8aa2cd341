import LadderMonitor.Proofs.Monitor.Frame

namespace LadderMonitor

/-- Whether a predicate answers yes to every question from now on. -/
def Predicate.Steady (p : Predicate) : Prop :=
  p.lasting = .yes ∧ ∀ reply ∈ p.queued, reply = .yes

namespace Predicate.Steady

variable {p : Predicate}

theorem reply (h : p.Steady) : p.reply = .yes := by
  obtain ⟨queued, lasting⟩ := p
  cases queued with
  | nil => exact h.1
  | cons first rest => exact h.2 first List.mem_cons_self

theorem asked (h : p.Steady) : p.asked.Steady :=
  ⟨h.1, fun reply hmem => h.2 reply (List.mem_of_mem_tail hmem)⟩

end Predicate.Steady

namespace Monitor

/-- Whether monitoring is active and stays so. -/
def Monitoring (m : Monitor) : Prop := ∀ p, m.active = some p → p.Steady

variable {m m' : Monitor}

theorem Monitoring.askActive (h : m.Monitoring) :
    m.askActive.1 = .ok true ∧ m.askActive.2.Monitoring := by
  unfold Monitoring at h
  simp only [Monitor.askActive, Monitoring]
  cases hactive : m.active with
  | none => exact ⟨rfl, fun _ hp => by cases hp⟩
  | some p =>
    have hsteady := h p hactive
    refine ⟨?_, fun _ hp => ?_⟩
    · simp only [consult, hsteady.reply]
    · obtain rfl := Option.some.inj hp
      exact hsteady.asked

theorem Monitoring.of_eq (h : m.Monitoring) (hactive : m'.active = m.active) : m'.Monitoring := by
  unfold Monitoring
  rwa [hactive]

/-- Without a predicate monitoring is always active. -/
theorem monitoring_of_none (h : m.active = none) : m.Monitoring := by
  intro p hp
  rw [h] at hp
  cases hp

/-- Polling that starts when something is registered starts if monitoring is active. -/
theorem Monitoring.startIfActive (h : m.Monitoring) :
    m.startIfActive.2 = none ∧ m.startIfActive.1.Monitoring := by
  unfold Monitor.startIfActive
  split
  · exact ⟨rfl, h⟩
  · obtain ⟨hyes, hkept⟩ := h.askActive
    split
    · rename_i asked heq
      obtain ⟨_, hstarted⟩ := asked.start_eq
      rw [heq] at hkept
      exact ⟨rfl, hkept.of_eq (by rw [hstarted])⟩
    · rename_i heq
      rw [heq] at hyes
      cases hyes
    · rename_i heq
      rw [heq] at hyes
      cases hyes

theorem Monitoring.register (h : m.Monitoring) (key : RegistrationKey) (s : Subscriber) :
    (m.register key s).2 = none ∧ (m.register key s).1.Monitoring := by
  have hentered : (m.enter key s).Monitoring := h
  unfold Monitor.register
  split
  · exact ⟨rfl, h⟩
  · exact hentered.startIfActive

/-- Ticks and poll tasks ask the predicate before they go on. -/
theorem Monitoring.askReady (h : m.Monitoring) : m.askReady.2.Monitoring := by
  unfold Monitor.askReady
  split
  · rename_i asked heq
    obtain rfl : asked = m.askConnected.2 := by rw [heq]
    have hconnected : m.askConnected.2.Monitoring := h
    exact hconnected.askActive.2
  · exact h

theorem Monitoring.beginTick (h : m.Monitoring) (owner : Option Nat) :
    (m.beginTick owner).2.Monitoring := by
  have hready := h.askReady
  unfold Monitor.beginTick
  split
  · rename_i heq
    rwa [heq] at hready
  · rename_i heq
    rwa [heq] at hready
  · rename_i asked heq
    rw [heq] at hready
    split
    · exact hready
    · obtain ⟨_, _, -, hbegun⟩ := beginReads_eq owner asked
      rw [hbegun]
      exact hready

theorem Monitoring.resume (h : m.Monitoring) (id : Nat) : (m.resume id).Monitoring := by
  obtain ⟨_, heq⟩ := m.resume_eq id
  exact h.of_eq (by rw [heq])

theorem Monitoring.wakeUp (h : m.Monitoring) (id : Nat) : (m.wakeUp id).1.Monitoring := by
  have hgoesOn : (m.goesOn id).2.Monitoring := by
    have hready := h.askReady
    unfold goesOn
    split
    · exact h
    · split
      all_goals
        rename_i heq
        rwa [heq] at hready
  unfold Monitor.wakeUp
  split
  · rename_i heq
    rwa [heq] at hgoesOn
  · rename_i gone heq
    rw [heq] at hgoesOn
    have hticking : Monitoring { gone with poller := gone.poller.setPhase id .ticking } := hgoesOn
    have hbegun := hticking.beginTick (some id)
    unfold enterTick
    split
    all_goals
      rename_i begun heq
      rw [heq] at hbegun
    · have hnoted : (begun.note (.reported .pollingFailed)).Monitoring := hbegun
      exact hnoted.resume id
    · exact hbegun.resume id
    · exact hbegun

/-- Monitoring stays active unless another predicate takes over. -/
theorem Monitoring.move (h : m.Monitoring) {v : Move} (hv : ∀ predicate, v ≠ .active predicate) :
    (m.move v).Monitoring := by
  cases v with
  | register key s => exact (h.register key s).2
  | unregister key s =>
    obtain ⟨_, heq⟩ := m.unregister_eq key s
    exact h.of_eq (by rw [Monitor.move, heq])
  | unregisterAll requester =>
    obtain ⟨_, heq⟩ := m.unregisterAll_eq requester
    exact h.of_eq (by rw [Monitor.move, heq])
  | start =>
    obtain ⟨_, heq⟩ := m.start_eq
    exact h.of_eq (by rw [Monitor.move, heq])
  | listen listener =>
    obtain ⟨_, heq⟩ := m.listen_eq listener
    exact h.of_eq (by rw [Monitor.move, heq])
  | active predicate => exact absurd rfl (hv predicate)
  | tick => exact h.beginTick none
  | wake id =>
    rcases m.move_wake_cases id with heq | ⟨-, heq⟩
    · rwa [heq]
    · rw [heq]
      exact h.wakeUp id
  | close tick =>
    rcases m.move_close_cases tick with heq | ⟨-, heq⟩
    · rwa [heq]
    · obtain ⟨_, hclosed⟩ := m.closeTick_eq tick
      exact h.of_eq (by rw [heq, hclosed])
  | _ => exact h

end Monitor

end LadderMonitor
