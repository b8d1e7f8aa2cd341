import LadderMonitor.Proofs.Monitor.Markers
import LadderMonitor.Proofs.Report

namespace LadderMonitor

/-- Whether a subscriber shows values in watch entries. -/
def Subscriber.isWatch : Subscriber → Bool
  | watch .. => true
  | _ => false

/-- Whether a subscriber of a watch entry has been made before a number was given out. -/
def Subscriber.MadeBefore (number : Nat) : Subscriber → Prop
  | watch _ _ stamp => stamp < number
  | _ => True

theorem Subscriber.MadeBefore.mono {s : Subscriber} {number number' : Nat}
    (h : s.MadeBefore number) (hle : number ≤ number') : s.MadeBefore number' := by
  cases s with
  | watch => exact Nat.lt_of_lt_of_le h hle
  | _ => trivial

/-- Whether an entry is to be told of a range through a subscriber. -/
def WatchEntry.Wants (e : WatchEntry) (range : ByteRange) (s : Subscriber) : Prop :=
  ∃ r, e.resolved = some r ∧ e.update = some s ∧ 0 ≤ r.address ∧ range = ⟨r.address, r.size⟩

/-- Whether the subscriber of an entry, if it has one, is its own, for the address that it shows,
which is one that a name has resolved to. -/
def WatchEntry.Own (e : WatchEntry) : Prop :=
  ∀ s, e.update = some s →
    ∃ r stamp, e.resolved = some r ∧ s = .watch e.serial r stamp ∧ r.Narrow

theorem WatchEntry.Own.of_none {e : WatchEntry} (hidle : e.update = none) : e.Own := by
  intro s hs
  rw [hidle] at hs
  cases hs

/-- Whether the subscriber of an entry, if it has one, has been made since a number was given
out. -/
def WatchEntry.NewSince (e : WatchEntry) (number : Nat) : Prop :=
  ∀ s, e.update = some s → ∃ r stamp, s = .watch e.serial r stamp ∧ number ≤ stamp

theorem WatchEntry.NewSince.of_none {e : WatchEntry} (hidle : e.update = none) {number : Nat} :
    e.NewSince number := by
  intro s hs
  rw [hidle] at hs
  cases hs

theorem WatchEntry.NewSince.mono {e : WatchEntry} {number number' : Nat} (h : e.NewSince number')
    (hle : number ≤ number') : e.NewSince number := by
  intro s hs
  obtain ⟨r, stamp, rfl, hstamp⟩ := h s hs
  exact ⟨r, stamp, rfl, Nat.le_trans hle hstamp⟩

theorem WatchEntry.not_wants_of_none {e : WatchEntry} (hidle : e.update = none) {range : ByteRange}
    {s : Subscriber} : ¬ e.Wants range s := by
  rintro ⟨_, _, hs, _⟩
  rw [hidle] at hs
  cases hs

/-- The elements of lists, when one of the lists is changed. -/
theorem exists_perm_flatten_modify {α : Type} (lists : List (List α)) {i : Nat}
    (hi : i < lists.length) (change : List α → List α) :
    ∃ rest, lists.flatten.Perm (lists[i] ++ rest) ∧
      (lists.modify i change).flatten.Perm (change lists[i] ++ rest) := by
  induction lists generalizing i with
  | nil => cases hi
  | cons first others ih =>
    cases i with
    | zero => exact ⟨others.flatten, .refl _, .refl _⟩
    | succ i =>
      obtain ⟨rest, hbefore, hafter⟩ := ih (Nat.lt_of_succ_lt_succ hi)
      refine ⟨first ++ rest, ?_, ?_⟩
      · rw [List.flatten_cons, List.getElem_cons_succ]
        exact (hbefore.append_left first).trans (List.perm_append_comm_assoc _ _ _)
      · rw [List.modify_succ_cons, List.flatten_cons, List.getElem_cons_succ]
        exact (hafter.append_left first).trans (List.perm_append_comm_assoc _ _ _)

namespace Monitor

variable {m m' : Monitor} {e e' x : WatchEntry} {range : ByteRange} {s : Subscriber}

/-- The entries of all watch lists. -/
def watched (m : Monitor) : List WatchEntry := m.watchLists.flatten

theorem watched_openList (m : Monitor) (list : Nat) : (m.openList list).watched = m.watched := by
  simp [watched, openList]

theorem lt_length_openList (m : Monitor) (list : Nat) :
    list < (m.openList list).watchLists.length := by
  simp only [Monitor.openList, List.length_append, List.length_replicate]
  omega

theorem entries_eq_getElem {list : Nat} (hlist : list < m.watchLists.length) :
    m.entries list = m.watchLists[list] := by
  rw [entries, List.getD_eq_getElem?_getD, List.getElem?_eq_getElem hlist, Option.getD_some]

theorem entries_openList (m : Monitor) (list : Nat) :
    (m.openList list).entries list = m.entries list := by
  have hlist := m.lt_length_openList list
  rw [entries_eq_getElem hlist, entries, List.getD_eq_getElem?_getD]
  simp only [Monitor.openList]
  by_cases hold : list < m.watchLists.length
  · rw [List.getElem_append_left hold, List.getElem?_eq_getElem hold, Option.getD_some]
  · rw [List.getElem_append_right (Nat.not_lt.1 hold), List.getElem_replicate,
      List.getElem?_eq_none (Nat.not_lt.1 hold), Option.getD_none]

theorem watched_modifyEntry (m : Monitor) (serial : Nat) (change : WatchEntry → WatchEntry) :
    (m.modifyEntry serial change).watched =
      m.watched.map fun e => if e.serial = serial then change e else e := by
  simp [watched, modifyEntry, List.map_flatten]

/-- The entries are told apart by numbers that have been given out, in one list they are told apart
by their names, and each has no subscriber but its own. -/
structure Listed (m : Monitor) : Prop where
  serials : (m.watched.map (·.serial)).Nodup
  known : ∀ e ∈ m.watched, e.serial < m.nextStamp
  names : ∀ entries ∈ m.watchLists, (entries.map (·.name)).Nodup
  own : ∀ e ∈ m.watched, e.Own

namespace Listed

theorem eq_of_serial (h : m.Listed) (he : e ∈ m.watched) (he' : e' ∈ m.watched)
    (hserial : e.serial = e'.serial) : e = e' :=
  List.inj_on_of_nodup_map h.serials he he' hserial

theorem of_eq (h : m.Listed) (hlists : m'.watchLists = m.watchLists)
    (hstamp : m.nextStamp ≤ m'.nextStamp) : m'.Listed where
  serials := by rw [watched, hlists]; exact h.serials
  known := by
    intro e he
    rw [watched, hlists] at he
    exact Nat.lt_of_lt_of_le (h.known e he) hstamp
  names := by rw [hlists]; exact h.names
  own := by rw [watched, hlists]; exact h.own

/-- What one entry is to be told, no other one is. -/
theorem eq_of_wants (h : m.Listed) (he : e ∈ m.watched) (he' : e' ∈ m.watched)
    {range' : ByteRange} (hwants : e.Wants range s) (hwants' : e'.Wants range' s) : e = e' := by
  obtain ⟨_, -, hs, -⟩ := hwants
  obtain ⟨_, -, hs', -⟩ := hwants'
  obtain ⟨_, _, -, hown, -⟩ := h.own e he s hs
  obtain ⟨_, _, -, hown', -⟩ := h.own e' he' s hs'
  rw [hown] at hown'
  exact h.eq_of_serial he he' (Subscriber.watch.inj hown').1

theorem openList (h : m.Listed) (list : Nat) : (m.openList list).Listed where
  serials := by rw [watched_openList]; exact h.serials
  known := by rw [watched_openList]; exact h.known
  names := by
    intro entries hentries
    rcases List.mem_append.1 hentries with hold | hnew
    · exact h.names entries hold
    · rw [List.eq_of_mem_replicate hnew]
      exact .nil
  own := by rw [watched_openList]; exact h.own

/-- A change under a number that no entry has changes nothing. -/
theorem modifyEntry_eq_self {serial : Nat} (hnone : ∀ e ∈ m.watched, e.serial ≠ serial)
    (change : WatchEntry → WatchEntry) : m.modifyEntry serial change = m := by
  have hsame : (m.watchLists.map (·.map fun e => if e.serial = serial then change e else e)) =
      m.watchLists := by
    refine (List.map_congr_left fun entries hentries => ?_).trans (List.map_id _)
    refine (List.map_congr_left fun e he => ?_).trans (List.map_id _)
    exact if_neg (hnone e (List.mem_flatten.2 ⟨entries, hentries, he⟩))
  rw [modifyEntry, hsame]

section Change

variable {change : WatchEntry → WatchEntry}

/-- The entries after a change of one of them. -/
theorem mem_modifyEntry (h : m.Listed) (he : e ∈ m.watched) :
    x ∈ (m.modifyEntry e.serial change).watched ↔
      x = change e ∨ x ∈ m.watched ∧ x.serial ≠ e.serial := by
  rw [watched_modifyEntry, List.mem_map]
  constructor
  · rintro ⟨old, hold, rfl⟩
    split
    · rename_i hserial
      rw [h.eq_of_serial hold he hserial]
      exact .inl rfl
    · exact .inr ⟨hold, ‹_›⟩
  · rintro (rfl | ⟨hx, hne⟩)
    · exact ⟨e, he, if_pos rfl⟩
    · exact ⟨x, hx, if_neg hne⟩

theorem modifyEntry (h : m.Listed) (he : e ∈ m.watched) (hserial : (change e).serial = e.serial)
    (hname : (change e).name = e.name) (hown : (change e).Own) :
    (m.modifyEntry e.serial change).Listed where
  serials := by
    rw [watched_modifyEntry, List.map_map]
    refine (List.map_congr_left fun old hold => ?_).symm ▸ h.serials
    simp only [Function.comp_apply]
    split
    · rename_i heq
      rw [h.eq_of_serial hold he heq, hserial]
    · rfl
  known := by
    intro x hx
    rcases (h.mem_modifyEntry he).1 hx with rfl | ⟨hx, -⟩
    · rw [hserial]
      exact h.known e he
    · exact h.known x hx
  names := by
    intro entries hentries
    obtain ⟨old, hold, rfl⟩ := List.mem_map.1 hentries
    rw [List.map_map]
    refine (List.map_congr_left fun x hx => ?_).symm ▸ h.names old hold
    simp only [Function.comp_apply]
    split
    · rename_i heq
      rw [h.eq_of_serial (List.mem_flatten.2 ⟨old, hold, hx⟩) he heq, hname]
    · rfl
  own := by
    intro x hx
    rcases (h.mem_modifyEntry he).1 hx with rfl | ⟨hx, -⟩
    · exact hown
    · exact h.own x hx

/-- After a change of one entry, all but what it was to be told is to be told as before. -/
theorem exists_wants_modifyEntry (h : m.Listed) (he : e ∈ m.watched) :
    (∃ x ∈ (m.modifyEntry e.serial change).watched, x.Wants range s) ↔
      (change e).Wants range s ∨ (∃ x ∈ m.watched, x.Wants range s) ∧ ¬ e.Wants range s := by
  simp only [h.mem_modifyEntry he]
  constructor
  · rintro ⟨x, rfl | ⟨hx, hne⟩, hwants⟩
    · exact .inl hwants
    · refine .inr ⟨⟨x, hx, hwants⟩, fun hwanted => hne ?_⟩
      rw [h.eq_of_wants hx he hwants hwanted]
  · rintro (hwants | ⟨⟨x, hx, hwants⟩, hother⟩)
    · exact ⟨_, .inl rfl, hwants⟩
    · refine ⟨x, .inr ⟨hx, fun hserial => hother ?_⟩, hwants⟩
      rwa [← h.eq_of_serial hx he hserial]

end Change

end Listed

end Monitor

end LadderMonitor
