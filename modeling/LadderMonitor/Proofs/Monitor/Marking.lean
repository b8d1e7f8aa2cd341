import LadderMonitor.Proofs.Monitor.Delivery
import LadderMonitor.Proofs.Monitor.Discretion
import LadderMonitor.Proofs.Monitor.Tended

namespace LadderMonitor

/-- Whether a subscriber is there for the display of a requester. -/
def Subscriber.Displays (s : Subscriber) (requester : Requester) : Prop :=
  ∃ stamp, s = .display requester stamp

instance (s : Subscriber) (requester : Requester) : Decidable (s.Displays requester) :=
  match s with
  | .display other stamp =>
    decidable_of_iff (other = requester) (by simp [Subscriber.Displays])
  | .outside _ | .watch .. => isFalse (by simp [Subscriber.Displays])

/-- Whether a registration is there for the display of a requester, perhaps among others. -/
def Registration.Displays (r : Registration) (requester : Requester) : Prop :=
  ∃ s ∈ r.subscribers, s.Displays requester

instance (r : Registration) (requester : Requester) : Decidable (r.Displays requester) :=
  inferInstanceAs (Decidable (∃ s ∈ r.subscribers, s.Displays requester))

namespace Monitor

/-- Requesters are marked as due, and otherwise what displays rest on is as it was. -/
structure Marks (marked : Requester → Prop) (m m' : Monitor) : Prop where
  reactions : m'.reactions = m.reactions
  workspace : m'.workspace = m.workspace
  attached : m'.display.attached = m.display.attached
  due : ∀ requester, requester.OfNetwork →
    (requester ∈ m'.display.due ↔ requester ∈ m.display.due ∨ marked requester)
  registered : ∀ r : Registration, r.key.requester.OfNetwork →
    (r ∈ m'.registry ↔ r ∈ m.registry)
  evaluations : m'.evaluations = m.evaluations
  monitoring : m.Monitoring → m'.Monitoring

variable {m m' m'' m₀ : Monitor} {marked marked' : Requester → Prop} {requester : Requester}
  {s : Subscriber} {r : Registration} {stamp : Nat}

theorem Discreetly.marks (h : Discreetly m m') : Marks (fun _ => False) m m' where
  reactions := h.gently.runs.reactions
  workspace := by rw [workspace, h.display, workspace]
  attached := by rw [h.display]
  due := fun _ _ => by rw [h.display, or_false]
  registered := h.registered
  evaluations := h.evaluations
  monitoring := h.monitoring

/-- What is registered for the display of a requester is registered under its name. -/
theorem Tended.requester_of_displays (h : m.Tended) (hr : r ∈ m.registry)
    (hdisplays : r.Displays requester) : r.key.requester = requester := by
  obtain ⟨_, hs, stamp, rfl⟩ := hdisplays
  exact h.owned r (List.mem_append_left _ hr) requester stamp hs

/-- The same networks are polled when the same is registered for networks. -/
theorem Tended.exists_displays_iff (h : m.Tended) (h' : m'.Tended)
    (hregistered : ∀ r : Registration, r.key.requester.OfNetwork →
      (r ∈ m'.registry ↔ r ∈ m.registry)) (hnetwork : requester.OfNetwork) :
    (∃ r ∈ m'.registry, r.Displays requester) ↔ ∃ r ∈ m.registry, r.Displays requester := by
  constructor
  · rintro ⟨r, hr, hdisplays⟩
    have hkey := h'.requester_of_displays hr hdisplays
    exact ⟨r, (hregistered r (hkey ▸ hnetwork)).1 hr, hdisplays⟩
  · rintro ⟨r, hr, hdisplays⟩
    have hkey := h.requester_of_displays hr hdisplays
    exact ⟨r, (hregistered r (hkey ▸ hnetwork)).2 hr, hdisplays⟩

namespace Marks

theorem refl (m : Monitor) : Marks (fun _ => False) m m := (Discreetly.refl m).marks

theorem of_eq (hreactions : m'.reactions = m.reactions) (hdisplay : m'.display = m.display)
    (hregistry : m'.registry = m.registry) (hjournal : m'.journal = m.journal)
    (hactive : m'.active = m.active) : Marks (fun _ => False) m m' where
  reactions := hreactions
  workspace := congrArg Display.workspace hdisplay
  attached := by rw [hdisplay]
  due := fun _ _ => by rw [hdisplay, or_false]
  registered := fun _ _ => by rw [hregistry]
  evaluations := by rw [Monitor.evaluations, hjournal, Monitor.evaluations]
  monitoring := fun h => h.of_eq hactive

theorem trans (h : Marks marked m m') (h' : Marks marked' m' m'') :
    Marks (fun requester => marked requester ∨ marked' requester) m m'' where
  reactions := h'.reactions.trans h.reactions
  workspace := h'.workspace.trans h.workspace
  attached := h'.attached.trans h.attached
  due := fun requester hnetwork => by
    rw [h'.due requester hnetwork, h.due requester hnetwork, or_assoc]
  registered := fun r hr => (h'.registered r hr).trans (h.registered r hr)
  evaluations := h'.evaluations.trans h.evaluations
  monitoring := h'.monitoring ∘ h.monitoring

theorem congr (h : Marks marked m m')
    (hmarked : ∀ requester, requester.OfNetwork → (marked requester ↔ marked' requester)) :
    Marks marked' m m' :=
  { h with
    due := fun requester hnetwork => by
      rw [h.due requester hnetwork, hmarked requester hnetwork] }

/-- In a row, everybody is marked whom one of them marks. -/
theorem foldl {α : Type} {f : Monitor → α → Monitor} {marked : α → Requester → Prop}
    {P : Monitor → Prop} {items : List α}
    (hstep : ∀ a ∈ items, ∀ m, P m → Marks (marked a) m (f m a) ∧ P (f m a)) (hm : P m) :
    Marks (fun requester => ∃ a ∈ items, marked a requester) m (items.foldl f m) ∧
      P (items.foldl f m) := by
  induction items generalizing m with
  | nil => exact ⟨(refl m).congr fun _ _ => by simp, hm⟩
  | cons a rest ih =>
    obtain ⟨hfirst, hkept⟩ := hstep a List.mem_cons_self m hm
    obtain ⟨hrest, hend⟩ := ih (fun a hmem => hstep a (List.mem_cons_of_mem _ hmem)) hkept
    exact ⟨(hfirst.trans hrest).congr fun _ _ => by simp, hend⟩

end Marks

theorem marks_markDue (m : Monitor) (requester : Requester) :
    Marks (· = requester) m (m.markDue requester) := by
  unfold markDue
  split
  · rename_i hdue
    refine { Marks.refl m with due := fun other _ => ?_ }
    rw [iff_self_or]
    rintro rfl
    exact hdue
  · exact ⟨rfl, rfl, rfl, fun other _ => by rw [List.mem_cons, or_comm], fun _ _ => .rfl, rfl, id⟩

theorem marks_notify (hgiven : m.Gives Command.Discreet) (key : RegistrationKey) (data : Bytes)
    (s : Subscriber) : Marks s.Displays m (m.notify reactor key data s) := by
  have hnoted : Discreetly m (m.note (.delivered key s data)) :=
    m.discreetly_move (v := .note (.delivered key s data)) rfl
  by_cases hdisplay : ∃ requester stamp, s = .display requester stamp
  · obtain ⟨requester, stamp, rfl⟩ := hdisplay
    refine (hnoted.marks.trans (marks_markDue _ requester)).congr fun other _ => ?_
    rw [false_or]
    refine ⟨fun heq => ⟨stamp, by rw [heq]⟩, fun ⟨_, heq⟩ => ?_⟩
    exact (Subscriber.display.inj heq).1.symm
  · have hother (requester : Requester) (stamp : Nat) : s ≠ .display requester stamp :=
      fun heq => hdisplay ⟨requester, stamp, heq⟩
    have hdelivered := discreetly_deliver (hnoted.gives hgiven) hother data
    refine (discreetly_reportIf (hnoted.trans hdelivered) (.subscriberFailed key)).marks.congr
      fun requester _ => ?_
    simp [Subscriber.Displays, hother]

/-- What happens while bytes are handed out: calls and moves, with the displays tended and the
registrations of networks as they were at the beginning. -/
structure Serving (m₀ m : Monitor) : Prop where
  runs : m₀.Runs m
  tended : m.Tended
  registered : ∀ r : Registration, r.key.requester.OfNetwork →
    (r ∈ m.registry ↔ r ∈ m₀.registry)

namespace Serving

theorem gives (h : Serving m₀ m) {allowed : Command → Prop} (hgiven : m₀.Gives allowed) :
    m.Gives allowed := hgiven.of_eq h.runs.reactions

theorem step (h : Serving m₀ m) (hruns : m.Runs m') (htends : Tends m m')
    (hmarks : Marks marked m m') : Serving m₀ m' where
  runs := h.runs.trans hruns
  tended := htends h.tended
  registered := fun r hr => (hmarks.registered r hr).trans (h.registered r hr)

/-- A registration that was there at the beginning is for the same displays all along: whatever
calls do to those of others, they do not add a display. -/
theorem displays_iff (h : Serving m₀ m) (hreachable : m₀.Reachable) (hrecorded : m₀.Recorded)
    (htended : m₀.Tended) (hr : r ∈ m₀.registry) (hnetwork : requester.OfNetwork) :
    (∃ s ∈ m.subscribersOf r.serial, s.Displays requester) ↔ r.Displays requester := by
  have hsame (hkey : r.key.requester = requester) :
      m.subscribersOf r.serial = r.subscribers := by
    have hkept : r ∈ m.registry := (h.registered r (hkey ▸ hnetwork)).2 hr
    exact subscribersOf_eq (hreachable.of_runs h.runs).sound.registry hkept
  constructor
  · rintro ⟨_, hs, stamp, rfl⟩
    obtain ⟨x, hx, hserial, hsub⟩ := exists_record_of_subscribersOf hs
    have hknown := (hrecorded.known (List.mem_append_left _ hr)).of_runs h.runs
    have hkey : r.key.requester = requester := by
      rw [← hknown.keyed x hx hserial]
      exact h.tended.owned x hx requester stamp hsub
    rw [hsame hkey] at hs
    exact ⟨_, hs, stamp, rfl⟩
  · intro hdisplays
    rw [hsame (htended.requester_of_displays hr hdisplays)]
    exact hdisplays

end Serving

section Serving

variable (hreachable : m₀.Reachable) (hrecorded : m₀.Recorded) (htended : m₀.Tended)
  (hgiven : m₀.Gives Command.Discreet)

include hreachable hrecorded htended hgiven

theorem Serving.notifyAll (h : Serving m₀ m) (hr : r ∈ m₀.registry) (data : Bytes) :
    Marks r.Displays m (m.notifyAll reactor r data) ∧ Serving m₀ (m.notifyAll reactor r data) := by
  have hstep : ∀ s ∈ m.subscribersOf r.serial, ∀ m, Serving m₀ m →
      Marks s.Displays m (m.notify reactor r.key data s) ∧
        Serving m₀ (m.notify reactor r.key data s) := by
    intro s _ m hserving
    have hmarks := marks_notify (hserving.gives hgiven) r.key data s
    have hleads := overlooksWatching_leads.notify m inner_reactor.within r.key data s
    have htends := overlooksWatching_tends.notify m within_reactor_tends r.key data s
    exact ⟨hmarks, hserving.step hleads.runs htends hmarks⟩
  obtain ⟨hmarks, hserving⟩ := Marks.foldl hstep h
  refine ⟨hmarks.congr fun requester hnetwork => ?_, hserving⟩
  exact h.displays_iff hreachable hrecorded htended hr hnetwork

/-- Bytes that cover the range of a registration are handed to its subscribers. -/
theorem Serving.serve (h : Serving m₀ m) {b : Batch Registration}
    (hcovers : b.Covers (·.key.range)) (hr : r ∈ b.items) (hregistered : r ∈ m₀.registry)
    {data : Bytes} (hsize : (data.size : Int) = b.size) :
    Marks r.Displays m (m.serve reactor b.start data r) ∧
      Serving m₀ (m.serve reactor b.start data r) := by
  have hstop := (hcovers.inside r hr).2
  have hlong : ¬ (data.size : Int) < r.key.range.start - b.start + r.key.range.size := by
    unfold ByteRange.stop at hstop
    unfold Batch.size at hsize
    omega
  unfold Monitor.serve
  simp only [Registration.range_eq]
  rw [if_neg hlong]
  exact h.notifyAll hreachable hrecorded htended hgiven hregistered _

/-- Zeros that are handed to every subscriber mark everybody for whose display something is
registered. -/
theorem serving_notifyZeros :
    Marks (fun requester => ∃ r ∈ m₀.registry, r.Displays requester) m₀
      (m₀.notifyZeros reactor) ∧ Serving m₀ (m₀.notifyZeros reactor) :=
  Marks.foldl (fun _ hr _ h => h.notifyAll hreachable hrecorded htended hgiven hr _)
    ⟨.refl m₀, htended, fun _ _ => .rfl⟩

end Serving

end Monitor

end LadderMonitor
