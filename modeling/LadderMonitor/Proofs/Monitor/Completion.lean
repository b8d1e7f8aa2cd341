import LadderMonitor.Proofs.Monitor.Attended
import LadderMonitor.Proofs.Monitor.TickDelivery

namespace LadderMonitor.Monitor

variable {react : Reactor} {m m' : Monitor} {t : Tick}

/-- What a turn does to the ticks in flight. -/
inductive TickStep (m : Monitor) (v : Turn) (m' : Monitor) : Prop where
  | kept (hhandled : m.handled? v = none) (hended : m.ended? v = none) (hticks : m'.ticks = m.ticks)
  | begun (tick : Tick) (hhandled : m.handled? v = none) (hended : m.ended? v = none)
      (hid : tick.id = m.nextStamp) (htickets : ∀ read ∈ tick.pending, m.nextStamp < read.ticket)
      (hticks : m'.ticks = m.ticks ++ [tick])
  | answered (tick : Tick) (read : PendingRead) (hmem : tick ∈ m.ticks)
      (hread : read ∈ tick.pending) (hhandled : m.handled? v = some read)
      (hended : m.ended? v = none) (hticks : m'.ticks = m.ticks.map (·.without read.ticket))
  | ended (tick : Tick) (hmem : tick ∈ m.ticks) (hpending : tick.pending = [])
      (hhandled : m.handled? v = none) (hended : m.ended? v = some tick)
      (hticks : m'.ticks = m.ticks.filter (·.id ≠ tick.id))

theorem Begins.tickStep {v : Turn} (hhandled : m.handled? v = none) (hended : m.ended? v = none)
    {owner : Option Nat} {answer : Except Fault (Option Tick)} (h : Begins owner m answer m') :
    TickStep m v m' := by
  cases h with
  | failed => exact .kept hhandled hended rfl
  | idle => exact .kept hhandled hended rfl
  | asked connected active chosen cursor reads tick _ _ _ _ htick =>
    refine .begun tick hhandled hended (by rw [htick]) ?_ rfl
    intro read hread
    have hticket := List.mem_map_of_mem (f := PendingRead.ticket) hread
    rw [htick, map_ticket_readsFrom, List.mem_range'_1] at hticket
    omega

theorem Reactor.Inner.tickStep (h : react.Inner) (m : Monitor) (v : Turn) :
    TickStep m v (m.turn react v) := by
  cases v with
  | command command => exact .kept rfl rfl (h.perform command m).frame.ticks
  | tick => exact (m.beginTick_begins none).tickStep rfl rfl
  | wake id =>
    rw [turn]
    split
    · have hwakes := m.wakeUp_wakes id
      generalize m.wakeUp id = result at hwakes
      rcases result with ⟨m', tick⟩
      cases hwakes with
      | ended => exact .kept rfl rfl rfl
      | slept => exact .kept rfl rfl rfl
      | entered connected active tick hcurrent hbegins =>
        cases hbegins.tickStep (v := .wake id) rfl rfl with
        | kept _ _ hticks => exact .kept rfl rfl hticks
        | begun tick _ _ hid htickets hticks => exact .begun tick rfl rfl hid htickets hticks
        | answered _ _ _ _ hhandled => cases hhandled
        | ended _ _ _ _ hended => cases hended
    · exact .kept rfl rfl rfl
  | reply ticket answer =>
    cases hhandled : m.handled? (.reply ticket answer) with
    | none =>
      rw [turn, hhandled]
      exact .kept hhandled rfl rfl
    | some read =>
      obtain ⟨⟨tick, read'⟩, hfind, rfl⟩ := Option.map_eq_some_iff.1 hhandled
      obtain ⟨hmem, hread⟩ := mem_heldReads.1 (List.mem_of_find?_eq_some hfind)
      rw [turn, hhandled]
      exact .answered tick read' hmem hread hhandled rfl (h.ticks_answer read' answer m)
  | conclude tick =>
    cases hended : m.ended? (.conclude tick) with
    | none =>
      rw [turn, hended]
      exact .kept rfl hended rfl
    | some tick' =>
      obtain ⟨rfl, hmem, hpending⟩ := ended?_eq_some_iff.1 hended
      have hclosed : (m.endTick react tick).ticks =
          (m.tellAll react).ticks.filter (·.id ≠ tick.id) := by
        obtain ⟨poller, heq⟩ := closeTick_eq (m.tellAll react) tick
        rw [endTick, heq]
      rw [turn, hended]
      refine .ended tick hmem hpending rfl hended (hclosed.trans ?_)
      rw [(h.tellAll m).frame.ticks]
  | settle which => exact .kept rfl rfl rfl
  | clock time => exact .kept rfl rfl rfl

/-- The reads that turns answer, in order. -/
def handled (react : Reactor) (m : Monitor) : List Turn → List PendingRead
  | [] => []
  | v :: rest => (m.handled? v).toList ++ handled react (m.turn react v) rest

/-- The ticks that turns end, in order. -/
def ended (react : Reactor) (m : Monitor) : List Turn → List Tick
  | [] => []
  | v :: rest => (m.ended? v).toList ++ ended react (m.turn react v) rest

/-- A tick and its tickets have numbers of their own. -/
structure Apart (m : Monitor) (t : Tick) : Prop where
  number : t.id < m.nextStamp
  tickets : ∀ read ∈ t.pending, read.ticket < m.nextStamp
  others : ∀ tick ∈ m.ticks, tick.id ≠ t.id → ∀ read ∈ tick.pending,
    read.ticket ∉ t.pending.map (·.ticket)

theorem Apart.step (h : m.Apart t) {v : Turn} (hstep : TickStep m v m')
    (hstamp : m.nextStamp ≤ m'.nextStamp) : m'.Apart t where
  number := Nat.lt_of_lt_of_le h.number hstamp
  tickets := fun read hread => Nat.lt_of_lt_of_le (h.tickets read hread) hstamp
  others := by
    intro tick htick hother
    cases hstep with
    | kept _ _ hticks =>
      rw [hticks] at htick
      exact h.others tick htick hother
    | begun new _ _ _ htickets hticks =>
      rw [hticks] at htick
      rcases List.mem_append.1 htick with hold | hnew
      · exact h.others tick hold hother
      · rw [List.mem_singleton.1 hnew]
        intro read hread hticket
        obtain ⟨read', hread', heq⟩ := List.mem_map.1 hticket
        have habove := htickets read hread
        have hbelow := h.tickets read' hread'
        omega
    | answered _ _ _ _ _ _ hticks =>
      rw [hticks] at htick
      obtain ⟨old, hold, rfl⟩ := List.mem_map.1 htick
      exact fun read hread => h.others old hold hother read (List.mem_of_mem_filter hread)
    | ended _ _ _ _ _ hticks =>
      rw [hticks] at htick
      exact h.others tick (List.mem_of_mem_filter htick) hother

/-- How far a tick has come: it is in flight with the reads that have not been answered, or it has
ended when all of them were. -/
inductive Fate (m : Monitor) (t : Tick) (done : List PendingRead) : List Tick → Prop
  | waits (hmem : t.minus done ∈ m.ticks) : Fate m t done []
  | finished (hgone : ∀ tick ∈ m.ticks, tick.id ≠ t.id) (hall : done.Perm t.pending) :
      Fate m t done [t.minus done]

/-- What holds of a tick from its beginning on, with the reads of it that have been answered and the
times that it has ended. -/
structure Followed (m : Monitor) (t : Tick) (done : List PendingRead) (ends : List Tick) :
    Prop where
  apart : m.Apart t
  tickets : (t.pending.map (·.ticket)).Nodup
  nodup : done.Nodup
  subset : done ⊆ t.pending
  fate : Fate m t done ends

namespace Followed

variable {done : List PendingRead} {ends : List Tick}

/-- A read of the tick that has been answered is told from the others by its ticket. -/
theorem ticket_mem_iff (h : m.Followed t done ends) {read : PendingRead}
    (hread : read ∈ t.pending) : read.ticket ∈ done.map (·.ticket) ↔ read ∈ done := by
  constructor
  · intro hticket
    obtain ⟨read', hread', heq⟩ := List.mem_map.1 hticket
    rwa [← List.inj_on_of_nodup_map h.tickets (h.subset hread') hread heq]
  · exact List.mem_map_of_mem

theorem pending_minus_iff (h : m.Followed t done ends) :
    (t.minus done).pending = [] ↔ done.Perm t.pending := by
  rw [List.perm_ext_iff_of_nodup h.nodup (h.tickets.of_map _), List.eq_nil_iff_forall_not_mem]
  constructor
  · intro hnone read
    refine ⟨fun hdone => h.subset hdone, fun hread => ?_⟩
    by_contra hleft
    exact hnone read (Tick.mem_minus.2 ⟨hread, fun hmem => hleft ((h.ticket_mem_iff hread).1 hmem)⟩)
  · intro hall read hleft
    obtain ⟨hread, hnot⟩ := Tick.mem_minus.1 hleft
    exact hnot ((h.ticket_mem_iff hread).2 ((hall read).2 hread))

theorem eq_of_number (h : m.Followed t done ends) (hpaced : m.Paced) {tick : Tick}
    (htick : tick ∈ m.ticks) (hnumber : tick.id = t.id) :
    tick = t.minus done ∧ t.minus done ∈ m.ticks ∧ ends = [] := by
  cases h.fate with
  | waits hmem => exact ⟨hpaced.eq_of_number htick hmem hnumber, hmem, rfl⟩
  | finished hgone => exact absurd hnumber (hgone tick htick)

/-- Turns that neither answer a read of the tick nor end it leave it as it is. -/
theorem leave (h : m.Followed t done ends) (hapart : m'.Apart t) {done' : List PendingRead}
    {ends' : List Tick} (hnone : done' = []) (hends : ends' = [])
    (hstays : t.minus done ∈ m.ticks → t.minus done ∈ m'.ticks)
    (hgone : (∀ tick ∈ m.ticks, tick.id ≠ t.id) → ∀ tick ∈ m'.ticks, tick.id ≠ t.id) :
    m'.Followed t (done ++ done') (ends ++ ends') := by
  rw [hnone, hends, List.append_nil, List.append_nil]
  refine ⟨hapart, h.tickets, h.nodup, h.subset, ?_⟩
  cases h.fate with
  | waits hmem => exact .waits (hstays hmem)
  | finished hover hall => exact .finished (hgone hover) hall

theorem begun (h : m.Followed t done ends) (hapart : m'.Apart t) {tick : Tick}
    (hid : tick.id = m.nextStamp) (hticks : m'.ticks = m.ticks ++ [tick]) :
    m'.Followed t (done ++ []) (ends ++ []) := by
  refine h.leave hapart rfl rfl (fun hmem => ?_) fun hgone other hother => ?_
  · rw [hticks]
    exact List.mem_append_left _ hmem
  · rw [hticks] at hother
    rcases List.mem_append.1 hother with hold | hnew
    · exact hgone other hold
    · rw [List.mem_singleton.1 hnew, hid]
      exact Nat.ne_of_gt h.apart.number

theorem answered (h : m.Followed t done ends) (hapart : m'.Apart t) (hpaced : m.Paced) {tick : Tick}
    {read : PendingRead} (hmem : tick ∈ m.ticks) (hread : read ∈ tick.pending)
    (hticks : m'.ticks = m.ticks.map (·.without read.ticket)) :
    m'.Followed t (done ++ [read].filter (· ∈ t.pending)) (ends ++ []) := by
  by_cases hnumber : tick.id = t.id
  · obtain ⟨rfl, hold, rfl⟩ := h.eq_of_number hpaced hmem hnumber
    obtain ⟨hread, hleft⟩ := Tick.mem_minus.1 hread
    have hnew : read ∉ done := fun hdone => hleft (List.mem_map_of_mem hdone)
    rw [List.filter_cons_of_pos (by simpa using hread), List.filter_nil, List.append_nil]
    refine ⟨hapart, h.tickets, ?_, ?_, .waits ?_⟩
    · exact List.nodup_append.2 ⟨h.nodup, List.nodup_singleton read,
        fun other hother _ hsame heq => hnew (List.mem_singleton.1 hsame ▸ heq ▸ hother)⟩
    · exact List.append_subset.2 ⟨h.subset, by simpa using hread⟩
    · rw [hticks, ← Tick.without_minus]
      exact List.mem_map_of_mem hold
  · have hother : read.ticket ∉ t.pending.map (·.ticket) :=
      h.apart.others tick hmem hnumber read hread
    have hforeign : read ∉ t.pending := fun hown => hother (List.mem_map_of_mem hown)
    refine h.leave hapart (List.filter_cons_of_neg (by simpa using hforeign)) rfl
      (fun hold => ?_) fun hgone other hmem' => ?_
    · have hsame : (t.minus done).without read.ticket = t.minus done := by
        refine Tick.without_eq_self fun own hown heq => hother ?_
        rw [← heq]
        exact List.mem_map_of_mem (Tick.mem_minus.1 hown).1
      rw [hticks, ← hsame]
      exact List.mem_map_of_mem hold
    · rw [hticks] at hmem'
      obtain ⟨old, hold, rfl⟩ := List.mem_map.1 hmem'
      exact hgone old hold

theorem closed (h : m.Followed t done ends) (hapart : m'.Apart t) (hpaced : m.Paced) {tick : Tick}
    (hmem : tick ∈ m.ticks) (hpending : tick.pending = [])
    (hticks : m'.ticks = m.ticks.filter (·.id ≠ tick.id)) :
    m'.Followed t (done ++ []) (ends ++ [tick].filter (·.id = t.id)) := by
  by_cases hnumber : tick.id = t.id
  · obtain ⟨rfl, -, rfl⟩ := h.eq_of_number hpaced hmem hnumber
    have hall := h.pending_minus_iff.1 hpending
    rw [List.filter_cons_of_pos (by simp), List.append_nil]
    refine ⟨hapart, h.tickets, h.nodup, h.subset, .finished (fun other hother => ?_) hall⟩
    rw [hticks, List.mem_filter, decide_eq_true_iff] at hother
    exact hother.2
  · refine h.leave hapart rfl (List.filter_cons_of_neg (by simpa using hnumber)) (fun hold => ?_)
      fun hgone other hother => ?_
    · rw [hticks, List.mem_filter, decide_eq_true_iff]
      exact ⟨hold, Ne.symm hnumber⟩
    · rw [hticks] at hother
      exact hgone other (List.mem_of_mem_filter hother)

theorem step (h : m.Followed t done ends) (hpaced : m.Paced) {v : Turn} (hstep : TickStep m v m')
    (hstamp : m.nextStamp ≤ m'.nextStamp) :
    m'.Followed t (done ++ (m.handled? v).toList.filter (· ∈ t.pending))
      (ends ++ (m.ended? v).toList.filter (·.id = t.id)) := by
  have hapart := h.apart.step hstep hstamp
  cases hstep with
  | kept hhandled hended hticks =>
    rw [hhandled, hended]
    exact h.leave hapart rfl rfl (by rw [hticks]; exact id) (by rw [hticks]; exact id)
  | begun tick hhandled hended hid _ hticks =>
    rw [hhandled, hended]
    exact h.begun hapart hid hticks
  | answered tick read hmem hread hhandled hended hticks =>
    rw [hhandled, hended]
    exact h.answered hapart hpaced hmem hread hticks
  | ended tick hmem hpending hhandled hended hticks =>
    rw [hhandled, hended]
    exact h.closed hapart hpaced hmem hpending hticks

theorem turns (h : m.Followed t done ends) (hreachable : m.Reachable) (hinner : react.Inner)
    (list : List Turn) :
    (m.turns react list).Followed t (done ++ (m.handled react list).filter (· ∈ t.pending))
      (ends ++ (m.ended react list).filter (·.id = t.id)) := by
  induction list generalizing m done ends with
  | nil =>
    rw [handled, ended, List.filter_nil, List.filter_nil, List.append_nil, List.append_nil]
    exact h
  | cons v rest ih =>
    have hruns := hinner.runs_turn m v
    have hstepped := h.step hreachable.paced (hinner.tickStep m v) hruns.nextStamp_le
    have hrest := ih hstepped (hreachable.of_runs hruns)
    rw [handled, ended, List.filter_append, List.filter_append, ← List.append_assoc,
      ← List.append_assoc]
    exact hrest

end Followed

end LadderMonitor.Monitor
