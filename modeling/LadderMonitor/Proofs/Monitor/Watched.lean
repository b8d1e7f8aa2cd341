import LadderMonitor.Proofs.Monitor.Discretion
import LadderMonitor.Proofs.Monitor.Entries
import LadderMonitor.Proofs.Plant.Resolution

namespace LadderMonitor

namespace Monitor

variable {m m' : Monitor} {e e' x : WatchEntry} {range : ByteRange} {s : Subscriber} {v : Move}

/-- What does not belong to watch lists keeps to itself: no network is polled in their name, and
their subscribers are registered in their name alone, and never removed as a whole. Only subscribers
that have been made are registered. -/
structure Aside (m : Monitor) : Prop where
  attached : ∀ entry ∈ m.display.attached, entry.1 ≠ .watch
  markers : ∀ entry ∈ m.display.markers, entry.2.isWatch = false
  owned : ∀ r ∈ m.records, ∀ s ∈ r.subscribers, s.isWatch →
    r.key.requester = .watch ∧ s.MadeBefore m.nextStamp
  retired : ∀ r ∈ m.retired, r.key.requester ≠ .watch

/-- Whether a move leaves alone what watch lists hold and register. -/
def Move.OffWatch : Move → Prop
  | register key s => key.requester ≠ .watch ∧ s.isWatch = false
  | unregister key _ => key.requester ≠ .watch
  | unregisterAll requester => requester ≠ .watch
  | display d =>
    (∀ entry ∈ d.attached, entry.1 ≠ .watch) ∧ ∀ entry ∈ d.markers, entry.2.isWatch = false
  | watchLists _ => False
  | _ => True

theorem retired_move (m : Monitor) (v : Move) {r : Registration} (hr : r ∈ (m.move v).retired) :
    r ∈ m.retired ∨ r ∈ m.registry ∧ v = .unregisterAll r.key.requester := by
  by_cases hspares : v.sparesRecords
  · rw [(records_move_of_spares hspares m).2] at hr
    exact .inl hr
  · cases v with
    | register key s =>
      rw [move, (m.register_records key s).1] at hr
      exact .inl hr
    | unregister key s =>
      obtain ⟨_, heq⟩ := m.unregister_eq key s
      rw [move, heq] at hr
      exact .inl hr
    | unregisterAll requester =>
      obtain ⟨_, heq⟩ := m.unregisterAll_eq requester
      rw [move, heq] at hr
      rcases List.mem_append.1 hr with hgone | hold
      · obtain ⟨hmem, rfl⟩ := Registry.mem_ofRequester.1 hgone
        exact .inr ⟨hmem, rfl⟩
      · exact .inl hold
    | _ => exact absurd rfl hspares

/-- Only the changes of displays and of what watch lists register matter. -/
theorem Aside.move (h : m.Aside)
    (hdisplay : ∀ d, v = .display d →
      (∀ entry ∈ d.attached, entry.1 ≠ .watch) ∧ ∀ entry ∈ d.markers, entry.2.isWatch = false)
    (hregister : ∀ key s, v = .register key s → s.isWatch →
      key.requester = .watch ∧ s.MadeBefore m.nextStamp)
    (hremoves : v ≠ .unregisterAll .watch) : (m.move v).Aside := by
  have hshown : (∀ entry ∈ (m.move v).display.attached, entry.1 ≠ .watch) ∧
      ∀ entry ∈ (m.move v).display.markers, entry.2.isWatch = false := by
    by_cases hchanges : ∃ d, v = .display d
    · obtain ⟨d, rfl⟩ := hchanges
      exact hdisplay d rfl
    · rw [(m.spared_move v).display fun d heq => hchanges ⟨d, heq⟩]
      exact ⟨h.attached, h.markers⟩
  refine ⟨hshown.1, hshown.2, fun r hr s hs hwatch => ?_, fun r hr => ?_⟩
  · suffices howned : r.key.requester = .watch ∧ s.MadeBefore m.nextStamp from
      ⟨howned.1, howned.2.mono (m.nextStamp_le_move v)⟩
    cases m.origin_move v hr with
    | kept old hold _ hkey hsubscribers =>
      rcases hsubscribers s hs with hbefore | hnow
      · rw [hkey]
        exact h.owned old hold s hbefore hwatch
      · exact hregister _ s hnow hwatch
    | opened s' hv hnew =>
      rw [hnew] at hs
      obtain rfl := List.mem_singleton.1 hs
      exact hregister _ _ hv hwatch
  · rcases m.retired_move v hr with hold | ⟨-, hv⟩
    · exact h.retired r hold
    · exact fun heq => hremoves (heq ▸ hv)

/-- What is registered for watch lists is what their entries are to be told. -/
structure Watched (m : Monitor) : Prop where
  sound : m.Sound
  listed : m.Listed
  aside : m.Aside
  registered : ∀ range s,
    m.registry.Holds ⟨.watch, range⟩ s ↔ ∃ e ∈ m.watched, e.Wants range s

theorem Untouched.watched (h : m.Untouched) (hlists : m.watched = []) (hnames : ∀ entries ∈
    m.watchLists, (entries.map (·.name)).Nodup) : m.Watched where
  sound := h.sound
  listed := ⟨by simp [hlists], by simp [hlists], hnames, by simp [hlists]⟩
  aside := by
    refine ⟨?_, ?_, ?_, ?_⟩ <;> simp [records, h.attached, h.markers, h.registry, h.retired]
  registered := by simp [hlists, h.registry, Registry.Holds]

theorem watchLists_move (m : Monitor) (hv : ∀ lists, v ≠ .watchLists lists) :
    (m.move v).watchLists = m.watchLists := by
  have hbegins {owner : Option Nat} {m m' : Monitor} {answer : Except Fault (Option Tick)}
      (h : Begins owner m answer m') : m'.watchLists = m.watchLists := by
    cases h <;> rfl
  cases v with
  | watchLists lists => exact absurd rfl (hv lists)
  | register key s =>
    obtain ⟨_, _, _, _, -, heq⟩ := m.register_eq key s
    rw [move, heq]
  | unregister key s =>
    obtain ⟨_, heq⟩ := m.unregister_eq key s
    rw [move, heq]
  | unregisterAll requester =>
    obtain ⟨_, heq⟩ := m.unregisterAll_eq requester
    rw [move, heq]
  | start =>
    obtain ⟨_, heq⟩ := m.start_eq
    rw [move, heq]
  | listen listener =>
    obtain ⟨_, heq⟩ := m.listen_eq listener
    rw [move, heq]
  | tick => exact hbegins (m.beginTick_begins none)
  | wake id =>
    rcases m.move_wake_cases id with heq | ⟨-, heq⟩
    · rw [heq]
    · have hwakes := m.wakeUp_wakes id
      rw [heq]
      generalize (m.wakeUp id).1 = m', (m.wakeUp id).2 = tick at hwakes
      cases hwakes with
      | ended | slept => rfl
      | entered _ _ _ _ hbegun => exact (hbegins hbegun).trans rfl
  | close tick =>
    rcases m.move_close_cases tick with heq | ⟨-, heq⟩
    · rw [heq]
    · obtain ⟨_, hclosed⟩ := m.closeTick_eq tick
      rw [heq, hclosed]
  | _ => rfl

namespace Watched

/-- Whatever leaves watch lists alone keeps them in order. -/
theorem move (h : m.Watched) (hv : v.OffWatch) : (m.move v).Watched := by
  have hlists : (m.move v).watchLists = m.watchLists := by
    refine m.watchLists_move ?_
    rintro _ rfl
    exact hv
  have htouches : ¬ v.Touches .watch := by
    cases v with
    | register => exact hv.1
    | unregister | unregisterAll => exact hv
    | _ => exact id
  refine ⟨h.sound.move v, h.listed.of_eq hlists (m.nextStamp_le_move v), h.aside.move ?_ ?_ ?_, ?_⟩
  · rintro d rfl
    exact hv
  · rintro key s rfl hwatch
    rw [hv.2] at hwatch
    cases hwatch
  · rintro rfl
    exact hv rfl
  · intro range s
    have hholds :
        (m.move v).registry.Holds ⟨.watch, range⟩ s ↔ m.registry.Holds ⟨.watch, range⟩ s :=
      m.holds_move htouches
    have hsame : (m.move v).watched = m.watched := congrArg List.flatten hlists
    rw [hholds, h.registered, hsame]

/-- Changes of the entries that tell nobody else than before leave the rest alone. -/
theorem of_lists (h : m.Watched) {lists : List (List WatchEntry)}
    (hlisted : Listed { m with watchLists := lists })
    (hwants : ∀ range s, (∃ e ∈ lists.flatten, e.Wants range s) ↔
      ∃ e ∈ m.watched, e.Wants range s) : Watched { m with watchLists := lists } where
  sound := h.sound.of_eq rfl rfl rfl (Nat.le_refl _)
  listed := hlisted
  aside := ⟨h.aside.attached, h.aside.markers, h.aside.owned, h.aside.retired⟩
  registered := fun range s => (h.registered range s).trans (hwants range s).symm

theorem openList (h : m.Watched) (list : Nat) : (m.openList list).Watched := by
  refine h.of_lists (h.listed.openList list) fun range s => ?_
  have hsame := m.watched_openList list
  simp only [watched, Monitor.openList] at hsame
  rw [hsame, watched]

/-- What entries show does not matter. -/
theorem valued (h : m.Watched) (serial : Nat) (value : Option Scalar) :
    (m.modifyEntry serial fun e => { e with value }).Watched := by
  by_cases hsome : ∃ e ∈ m.watched, e.serial = serial
  · obtain ⟨e, he, rfl⟩ := hsome
    refine h.of_lists (h.listed.modifyEntry he rfl rfl (h.listed.own e he)) fun range s => ?_
    have hsame : WatchEntry.Wants { e with value } range s ↔ e.Wants range s := .rfl
    refine (h.listed.exists_wants_modifyEntry he).trans ?_
    rw [hsame]
    constructor
    · rintro (hwants | ⟨hwants, -⟩)
      · exact ⟨e, he, hwants⟩
      · exact hwants
    · exact fun hwants => (em (e.Wants range s)).imp_right fun hother => ⟨hwants, hother⟩
  · rw [Listed.modifyEntry_eq_self fun e he hserial => hsome ⟨e, he, hserial⟩]
    exact h

end Watched

theorem registry_unregister (m : Monitor) (key : RegistrationKey) (s : Subscriber) :
    (m.unregister key s).registry = Registry.remove key s m.registry := by
  obtain ⟨_, heq⟩ := m.unregister_eq key s
  rw [heq]

/-- In place of the entry with a number there is one that shows a resolution, and is polled exactly
if that is an address, through a subscriber of its own. -/
def Renewed (serial : Nat) (resolved : Option ResolvedAddress) (m m' : Monitor) : Prop :=
  ∃ e : WatchEntry, e.serial = serial ∧ e.resolved = resolved ∧
    e.update.isSome = resolved.isSome ∧ e.NewSince m.nextStamp ∧
    ∀ x, x ∈ m'.watched ↔ x = e ∨ x ∈ m.watched ∧ x.serial ≠ serial

namespace Watched

/-- Without the subscriber of an entry, what is registered is what the others are to be told. -/
theorem holds_unregister (h : m.Watched) {r : ResolvedAddress} (hresolved : e.resolved = some r)
    {s₀ : Subscriber} (hs₀ : e.update = some s₀) :
    (m.unregister (watchKey r) s₀).registry.Holds ⟨.watch, range⟩ s ↔
      (∃ x ∈ m.watched, x.Wants range s) ∧ ¬ e.Wants range s := by
  rw [registry_unregister, h.sound.registry.holds_remove, ← h.registered]
  refine and_congr_right fun hholds => not_congr ?_
  obtain ⟨registration, hmem, hkey, -⟩ := hholds
  have hstart := (h.sound.registry.ranges registration hmem).1
  rw [hkey] at hstart
  constructor
  · rintro ⟨hsame, rfl⟩
    have hrange : range = ⟨r.address, r.size⟩ := congrArg RegistrationKey.range hsame
    exact ⟨r, hresolved, hs₀, by rwa [hrange] at hstart, hrange⟩
  · rintro ⟨r', hr', hs, -, rfl⟩
    obtain rfl := Option.some.inj (hresolved.symm.trans hr')
    exact ⟨rfl, (Option.some.inj (hs₀.symm.trans hs)).symm⟩

/-- An entry that is stopped gives up what it has registered, and otherwise stays. -/
theorem stopEntry (h : m.Watched) (he : e ∈ m.watched) :
    (m.stopEntry e).Watched ∧ ∀ x, x ∈ (m.stopEntry e).watched ↔
      x = { e with update := none } ∨ x ∈ m.watched ∧ x.serial ≠ e.serial := by
  unfold Monitor.stopEntry
  split
  · rename_i r s hresolved hs
    have hlists := m.watchLists_move (v := .unregister (watchKey r) s) (by simp)
    have hlisted : (m.unregister (watchKey r) s).Listed :=
      h.listed.of_eq hlists (m.nextStamp_le_move (.unregister (watchKey r) s))
    have hwatched : (m.unregister (watchKey r) s).watched = m.watched :=
      congrArg List.flatten hlists
    have hmem : e ∈ (m.unregister (watchKey r) s).watched := by rwa [hwatched]
    refine ⟨⟨?_, ?_, ?_, fun range s' => ?_⟩, fun x => ?_⟩
    · exact (h.sound.unregister _ _).of_eq rfl rfl rfl (Nat.le_refl _)
    · exact hlisted.modifyEntry hmem rfl rfl (.of_none rfl)
    · have haside : (m.unregister (watchKey r) s).Aside :=
        h.aside.move (v := .unregister (watchKey r) s) (by simp) (by simp) (by simp)
      exact ⟨haside.attached, haside.markers, haside.owned, haside.retired⟩
    · rw [hlisted.exists_wants_modifyEntry hmem, hwatched]
      have hidle : ¬ WatchEntry.Wants { e with update := none } range s' :=
        WatchEntry.not_wants_of_none rfl
      rw [or_iff_right hidle]
      exact h.holds_unregister hresolved hs
    · rw [hlisted.mem_modifyEntry hmem, hwatched]
  · rename_i hnone
    have hidle : e.update = none := by
      cases hs : e.update with
      | none => rfl
      | some s =>
        obtain ⟨r, _, hresolved, -⟩ := h.listed.own e he s hs
        exact absurd hs (hnone r s hresolved)
    refine ⟨h, fun x => ?_⟩
    have hsame : { e with update := none } = e := by rw [← hidle]
    rw [hsame]
    constructor
    · intro hx
      by_cases hserial : x.serial = e.serial
      · exact .inl (h.listed.eq_of_serial hx he hserial)
      · exact .inr ⟨hx, hserial⟩
    · rintro (rfl | ⟨hx, -⟩)
      · exact he
      · exact hx

/-- A resolved entry gets a subscriber of its own, which is registered for its address. -/
theorem subscribeEntry (h : m.Watched) (he : e ∈ m.watched) {r : ResolvedAddress}
    (hresolved : e.resolved = some r) (hidle : e.update = none) (hnarrow : r.Narrow) :
    (m.subscribeEntry e.serial r).1.Watched ∧ ∀ x, x ∈ (m.subscribeEntry e.serial r).1.watched ↔
      x = { e with update := some (.watch e.serial r m.nextStamp) } ∨
        x ∈ m.watched ∧ x.serial ≠ e.serial := by
  have hstamped : m.stamp.1.Watched := h.move (v := .stamp) trivial
  have hown : WatchEntry.Own { e with update := some (.watch e.serial r m.nextStamp) } := by
    rintro s hs
    obtain rfl := Option.some.inj hs
    exact ⟨r, m.nextStamp, hresolved, rfl, hnarrow⟩
  have hlisted : (m.stamp.1.modifyEntry e.serial
      fun x => { x with update := some (.watch e.serial r m.nextStamp) }).Listed :=
    hstamped.listed.modifyEntry he rfl rfl hown
  have hlists (m' : Monitor) (key : RegistrationKey) (s : Subscriber) :
      (m'.register key s).1.watchLists = m'.watchLists :=
    m'.watchLists_move (v := .register key s) (by simp)
  have hchanged : m.subscribeEntry e.serial r =
      (m.stamp.1.modifyEntry e.serial
        fun x => { x with update := some (.watch e.serial r m.nextStamp) }).register (watchKey r)
          (.watch e.serial r m.nextStamp) := rfl
  rw [hchanged]
  refine ⟨⟨?_, ?_, ?_, fun range s => ?_⟩, fun x => ?_⟩
  · refine Sound.register ?_ _ _
    exact hstamped.sound.of_eq rfl rfl rfl (Nat.le_refl _)
  · exact hlisted.of_eq (hlists _ _ _) (nextStamp_le_move _ (.register _ _))
  · refine Aside.move (v := .register _ _) ?_ (by simp) ?_ (by simp)
    · exact ⟨h.aside.attached, h.aside.markers, hstamped.aside.owned, h.aside.retired⟩
    · rintro _ _ heq -
      obtain ⟨rfl, rfl⟩ := Move.register.inj heq
      exact ⟨rfl, Nat.lt_succ_self _⟩
  · rw [holds_register, watched, hlists]
    refine Iff.trans ?_ (hstamped.listed.exists_wants_modifyEntry he).symm
    refine or_congr ⟨?_, ?_⟩ ?_
    · rintro ⟨hkey, rfl, hstart, -⟩
      exact ⟨r, hresolved, rfl, hstart, congrArg RegistrationKey.range hkey⟩
    · rintro ⟨r', hr', hs, hstart, rfl⟩
      obtain rfl := Option.some.inj (hresolved.symm.trans hr')
      exact ⟨rfl, (Option.some.inj hs).symm, hstart, hnarrow.pos⟩
    · rw [and_iff_left (WatchEntry.not_wants_of_none hidle)]
      exact hstamped.registered range s
  · rw [watched, hlists]
    exact hstamped.listed.mem_modifyEntry he

/-- An entry that has no subscriber is resolved, and polled at its address if it has one. When its
name cannot be resolved, it stays as it is. -/
theorem startEntry (h : m.Watched) (he : e ∈ m.watched) (hidle : e.update = none)
    (e' : WatchEntry) (hserial : e'.serial = e.serial) :
    (m.startEntry e').1.Watched ∧
      ((∃ fault, m.project.resolveText e'.name = .error fault) ∧ (m.startEntry e').1 = m ∨
        ∃ resolved, m.project.resolveText e'.name = .ok resolved ∧
          Renewed e.serial resolved m (m.startEntry e').1) := by
  unfold Monitor.startEntry
  rw [hserial]
  split
  · rename_i fault hfault
    exact ⟨h, .inl ⟨⟨fault, hfault⟩, rfl⟩⟩
  · rename_i resolved hresolve
    have hidle' : ({ e with resolved, value := none } : WatchEntry).update = none := hidle
    have hlisted : (m.modifyEntry e.serial fun x => { x with resolved, value := none }).Listed :=
      h.listed.modifyEntry he rfl rfl (.of_none hidle')
    have hshown : (m.modifyEntry e.serial fun x => { x with resolved, value := none }).Watched := by
      refine h.of_lists hlisted fun range s => ?_
      refine (h.listed.exists_wants_modifyEntry he).trans ?_
      rw [or_iff_right (WatchEntry.not_wants_of_none hidle'),
        and_iff_left (WatchEntry.not_wants_of_none hidle)]
    have hmem (x : WatchEntry) :
        x ∈ (m.modifyEntry e.serial fun x => { x with resolved, value := none }).watched ↔
          x = { e with resolved, value := none } ∨ x ∈ m.watched ∧ x.serial ≠ e.serial :=
      h.listed.mem_modifyEntry he
    simp only
    split
    · refine ⟨hshown, .inr ⟨none, hresolve, { e with resolved := none, value := none }, rfl, rfl,
        ?_, .of_none hidle', hmem⟩⟩
      rw [hidle']
      rfl
    · rename_i r
      obtain ⟨hsubscribed, hmem'⟩ := hshown.subscribeEntry ((hmem _).2 (.inl rfl)) rfl hidle'
        (Project.narrow_of_resolveText hresolve)
      refine ⟨hsubscribed, .inr ⟨some r, hresolve, { e with
        resolved := some r
        value := none
        update := some (.watch e.serial r m.nextStamp) },
        rfl, rfl, rfl, fun s hs => ?_, fun x => ?_⟩⟩
      · obtain rfl := Option.some.inj hs
        exact ⟨r, m.nextStamp, rfl, Nat.le_refl _⟩
      refine (hmem' x).trans ?_
      rw [hmem]
      constructor
      · rintro (rfl | ⟨rfl | hold, hne⟩)
        · exact .inl rfl
        · exact absurd rfl hne
        · exact .inr hold
      · rintro (rfl | hold)
        · exact .inl rfl
        · exact .inr ⟨.inr hold, hold.2⟩

/-- An entry that is stopped and started again leaves the others as they are. -/
theorem restart (h : m.Watched) (he : e ∈ m.watched) :
    ((m.stopEntry e).startEntry e).1.Watched ∧
      (∀ x ∈ m.watched, x.serial ≠ e.serial → x ∈ ((m.stopEntry e).startEntry e).1.watched) ∧
      (∀ x ∈ ((m.stopEntry e).startEntry e).1.watched, x ∈ m.watched ∨ x.NewSince m.nextStamp) ∧
      ∀ resolved, m.project.resolveText e.name = .ok resolved →
        Renewed e.serial resolved m ((m.stopEntry e).startEntry e).1 := by
  obtain ⟨hstopped, hmem⟩ := h.stopEntry he
  obtain ⟨hstarted, hcases⟩ :=
    hstopped.startEntry ((hmem _).2 (.inl rfl)) rfl e rfl
  have hothers (x : WatchEntry) (hne : x.serial ≠ e.serial) :
      x ∈ (m.stopEntry e).watched ↔ x ∈ m.watched := by
    rw [hmem, and_iff_left hne, or_iff_right]
    rintro rfl
    exact hne rfl
  have hdiscreetly := overlooksEntries_discreetly.stopEntry m e
  have hproject : (m.stopEntry e).project = m.project := by
    rw [project, workspace, hdiscreetly.display, project, workspace]
  have hstamp := hdiscreetly.gently.runs.nextStamp_le
  rw [hproject] at hcases
  refine ⟨hstarted, fun x hx hne => ?_, fun x hx => ?_, fun resolved hresolve => ?_⟩
  · rcases hcases with ⟨-, heq⟩ | ⟨_, -, _, -, -, -, -, hafter⟩
    · rw [heq]
      exact (hothers x hne).2 hx
    · exact (hafter x).2 (.inr ⟨(hothers x hne).2 hx, hne⟩)
  · rcases hcases with ⟨-, heq⟩ | ⟨_, -, _, -, -, -, hnew, hafter⟩
    · rw [heq] at hx
      rcases (hmem x).1 hx with rfl | ⟨hold, -⟩
      · exact .inr (.of_none rfl)
      · exact .inl hold
    · rcases (hafter x).1 hx with rfl | ⟨hold, hne⟩
      · exact .inr (hnew.mono hstamp)
      · exact .inl ((hothers x hne).1 hold)
  · rcases hcases with ⟨⟨fault, hfault⟩, -⟩ |
      ⟨resolved', hresolve', y, hserial, hshown, hpolled, hnew, hafter⟩
    · rw [hresolve] at hfault
      cases hfault
    · obtain rfl := Except.ok.inj (hresolve.symm.trans hresolve')
      refine ⟨y, hserial, hshown, hpolled, hnew.mono hstamp, fun x => (hafter x).trans ?_⟩
      exact or_congr_right (and_congr_left fun hne => hothers x hne)

/-- A new entry is resolved by nobody yet, and wants nothing. -/
theorem append (h : m.Watched) {list : Nat} (hlist : list < m.watchLists.length) {name : String}
    (hname : ∀ x ∈ m.entries list, x.name ≠ name) :
    Watched { m with
        nextStamp := m.nextStamp + 1
        watchLists := m.watchLists.modify list (· ++ [{ serial := m.nextStamp, name }]) } ∧
      ∀ x, x ∈ (m.watchLists.modify list (· ++ [{ serial := m.nextStamp, name }])).flatten ↔
        x = { serial := m.nextStamp, name } ∨ x ∈ m.watched := by
  obtain ⟨rest, hbefore, hafter⟩ := exists_perm_flatten_modify m.watchLists hlist
    (· ++ [({ serial := m.nextStamp, name } : WatchEntry)])
  have hperm : (m.watchLists.modify list (· ++ [{ serial := m.nextStamp, name }])).flatten.Perm
      ({ serial := m.nextStamp, name } :: m.watched) := by
    refine hafter.trans ?_
    rw [List.append_assoc, List.singleton_append]
    exact List.perm_middle.trans (hbefore.symm.cons _)
  have hmem (x : WatchEntry) : x ∈ (m.watchLists.modify list
      (· ++ [{ serial := m.nextStamp, name }])).flatten ↔
        x = { serial := m.nextStamp, name } ∨ x ∈ m.watched := by
    rw [hperm.mem_iff, List.mem_cons]
  have hstamped : m.stamp.1.Watched := h.move (v := .stamp) trivial
  refine ⟨hstamped.of_lists ⟨?_, ?_, ?_, ?_⟩ fun range s => ?_, hmem⟩
  · refine (hperm.map _).nodup_iff.2 (List.nodup_cons.2 ⟨fun hknown => ?_, h.listed.serials⟩)
    obtain ⟨x, hx, hserial⟩ := List.mem_map.1 hknown
    exact Nat.ne_of_lt (h.listed.known x hx) hserial
  · intro x hx
    rcases (hmem x).1 hx with rfl | hold
    · exact Nat.lt_succ_self _
    · exact Nat.lt_succ_of_lt (h.listed.known x hold)
  · intro entries hentries
    obtain ⟨i, hi, rfl⟩ := List.getElem_of_mem hentries
    rw [List.getElem_modify]
    rw [List.length_modify] at hi
    have hold := h.listed.names _ (List.getElem_mem hi)
    split
    · rename_i heq
      subst heq
      rw [List.map_append, List.nodup_append]
      refine ⟨hold, List.nodup_singleton _, ?_⟩
      rintro other hother _ hnew rfl
      obtain ⟨x, hx, hx'⟩ := List.mem_map.1 hother
      rw [← entries_eq_getElem hi] at hx
      exact hname x hx (hx'.trans (List.mem_singleton.1 hnew))
    · exact hold
  · intro x hx
    rcases (hmem x).1 hx with rfl | hold
    · exact .of_none rfl
    · exact h.listed.own x hold
  · simp only [hmem, or_and_right, exists_or]
    refine or_iff_right ?_
    rintro ⟨_, rfl, hwants⟩
    exact WatchEntry.not_wants_of_none rfl hwants

/-- Adding an entry leaves the other entries as they are. The new one, if there is none of its name
yet, is polled exactly if its name resolves to an address, through a subscriber of its own. -/
theorem watch (h : m.Watched) (list : Nat) (name : String) :
    (m.watch list name).1.Watched ∧ ∀ x ∈ (m.watch list name).1.watched, x ∈ m.watched ∨
      m.entry? list name = none ∧ x.NewSince m.nextStamp ∧
        x.update.isSome = x.resolved.isSome ∧
          ∀ r, x.resolved = some r → m.project.resolveText name = .ok (some r) := by
  have hopened := h.openList list
  have hsame := m.watched_openList list
  have hproject : (m.openList list).project = m.project := rfl
  have hstamp : (m.openList list).nextStamp = m.nextStamp := rfl
  have hlist := m.lt_length_openList list
  have hentry : Monitor.entry? list name (m.openList list) = m.entry? list name := by
    simp only [Monitor.entry? , entries_openList]
  unfold Monitor.watch
  generalize m.openList list = m' at *
  simp only
  split
  · exact ⟨hopened, fun x hx => .inl (hsame ▸ hx)⟩
  · rename_i hnone
    have hname : ∀ x ∈ m'.entries list, x.name ≠ name := by simpa [ entry? ] using hnone
    obtain ⟨happended, hmem⟩ := hopened.append hlist hname
    obtain ⟨hstarted, hcases⟩ :=
      happended.startEntry ((hmem _).2 (.inl rfl)) rfl { serial := m'.nextStamp, name } rfl
    rw [hnone] at hentry
    refine ⟨hstarted, fun x hx => ?_⟩
    rcases hcases with ⟨-, heq⟩ | ⟨resolved, hresolve, y, -, hshown, hpolled, hnew, hafter⟩
    · replace hx := heq ▸ hx
      rcases (hmem x).1 hx with rfl | hold
      · exact .inr ⟨hentry.symm, .of_none rfl, rfl, by simp⟩
      · exact .inl (hsame ▸ hold)
    · rcases (hafter x).1 hx with rfl | ⟨hx, hne⟩
      · refine .inr ⟨hentry.symm, hnew.mono (by rw [← hstamp]; exact Nat.le_succ _),
          by rw [hpolled, hshown], fun r hr => ?_⟩
        rw [hshown] at hr
        rw [← hr, ← hproject]
        exact hresolve
      · rcases (hmem x).1 hx with rfl | hold
        · exact absurd rfl hne
        · exact .inl (hsame ▸ hold)

/-- Without an entry, its list is in order. -/
theorem mem_modify_filter (h : m.Watched) {list : Nat} (hlist : list < m.watchLists.length)
    (he : e ∈ m.entries list) :
    Listed { m with watchLists := m.watchLists.modify list (·.filter (·.name ≠ e.name)) } ∧
      ∀ x, x ∈ (m.watchLists.modify list (·.filter (·.name ≠ e.name))).flatten ↔
        x ∈ m.watched ∧ x.serial ≠ e.serial := by
  rw [entries_eq_getElem hlist] at he
  have hnames := h.listed.names _ (List.getElem_mem hlist)
  obtain ⟨rest, hbefore, hafter⟩ := exists_perm_flatten_modify m.watchLists hlist
    (·.filter (·.name ≠ e.name))
  have hsplit : (m.watchLists[list]).Perm
      (e :: (m.watchLists[list]).filter (·.name ≠ e.name)) := by
    have hothers : (m.watchLists[list]).filter (·.name ≠ e.name) =
        (m.watchLists[list]).erase e := by
      rw [(hnames.of_map _).erase_eq_filter]
      refine List.filter_congr fun x hx => ?_
      by_cases hsame : x = e
      · simp [hsame]
      · have hname : x.name ≠ e.name := fun heq =>
          hsame (List.inj_on_of_nodup_map hnames hx he heq)
        simp [hsame, hname]
    rw [hothers]
    exact List.perm_cons_erase he
  have hperm : m.watched.Perm
      (e :: (m.watchLists.modify list (·.filter (·.name ≠ e.name))).flatten) :=
    (hbefore.trans (hsplit.append_right rest)).trans (hafter.symm.cons e)
  have hserials := (hperm.map (·.serial)).nodup_iff.1 h.listed.serials
  rw [List.map_cons, List.nodup_cons] at hserials
  have hmem (x : WatchEntry) :
      x ∈ (m.watchLists.modify list (·.filter (·.name ≠ e.name))).flatten ↔
        x ∈ m.watched ∧ x.serial ≠ e.serial := by
    rw [hperm.mem_iff, List.mem_cons]
    constructor
    · intro hx
      refine ⟨.inr hx, fun heq => hserials.1 ?_⟩
      rw [← heq]
      exact List.mem_map_of_mem hx
    · rintro ⟨rfl | hx, hne⟩
      · exact absurd rfl hne
      · exact hx
  refine ⟨⟨hserials.2, ?_, ?_, ?_⟩, hmem⟩
  · exact fun x hx => h.listed.known x ((hmem x).1 hx).1
  · intro entries hentries
    obtain ⟨i, hi, rfl⟩ := List.getElem_of_mem hentries
    rw [List.getElem_modify]
    rw [List.length_modify] at hi
    have hold := h.listed.names _ (List.getElem_mem hi)
    split
    · exact hold.sublist (List.filter_sublist.map _)
    · exact hold
  · exact fun x hx => h.listed.own x ((hmem x).1 hx).1

/-- An entry that has been taken out of its list gives up what it has registered. -/
theorem stopEntry_of_removed (h : m.Watched) (he : e ∈ m.watched) {lists : List (List WatchEntry)}
    (hlisted : Listed { m with watchLists := lists })
    (hmem : ∀ x, x ∈ lists.flatten ↔ x ∈ m.watched ∧ x.serial ≠ e.serial) :
    (Monitor.stopEntry e { m with watchLists := lists }).Watched ∧
      (Monitor.stopEntry e { m with watchLists := lists }).watchLists = lists := by
  have hwants (range : ByteRange) (s : Subscriber) : (∃ x ∈ lists.flatten, x.Wants range s) ↔
      (∃ x ∈ m.watched, x.Wants range s) ∧ ¬ e.Wants range s := by
    simp only [hmem]
    constructor
    · rintro ⟨x, ⟨hx, hne⟩, hwants⟩
      refine ⟨⟨x, hx, hwants⟩, fun hwanted => hne ?_⟩
      rw [h.listed.eq_of_wants hx he hwants hwanted]
    · rintro ⟨⟨x, hx, hwants⟩, hother⟩
      refine ⟨x, ⟨hx, fun hserial => hother ?_⟩, hwants⟩
      rwa [← h.listed.eq_of_serial hx he hserial]
  have haside : Aside { m with watchLists := lists } :=
    ⟨h.aside.attached, h.aside.markers, h.aside.owned, h.aside.retired⟩
  have hsound : Sound { m with watchLists := lists } := h.sound.of_eq rfl rfl rfl (Nat.le_refl _)
  unfold Monitor.stopEntry
  split
  · rename_i r s hresolved hs
    have hlists : (unregister (watchKey r) s { m with watchLists := lists }).watchLists = lists :=
      watchLists_move _ (v := .unregister (watchKey r) s) (by simp)
    have hwatched : (unregister (watchKey r) s { m with watchLists := lists }).watched =
        lists.flatten := congrArg List.flatten hlists
    have hgone : ∀ x ∈ (unregister (watchKey r) s { m with watchLists := lists }).watched,
        x.serial ≠ e.serial := by
      rw [hwatched]
      exact fun x hx => ((hmem x).1 hx).2
    rw [Listed.modifyEntry_eq_self hgone]
    refine ⟨⟨hsound.unregister _ _, hlisted.of_eq hlists (nextStamp_le_move _ (.unregister _ _)),
      haside.move (v := .unregister (watchKey r) s) (by simp) (by simp) (by simp), ?_⟩, hlists⟩
    intro range s'
    have hregistry : (unregister (watchKey r) s { m with watchLists := lists }).registry =
        (m.unregister (watchKey r) s).registry := by
      rw [registry_unregister, registry_unregister]
    rw [hregistry, hwatched, hwants]
    exact h.holds_unregister hresolved hs
  · rename_i hnone
    refine ⟨⟨hsound, hlisted, haside, fun range s => ?_⟩, rfl⟩
    have hidle : ¬ e.Wants range s := by
      rintro ⟨r, hresolved, hs, -⟩
      exact hnone r s hresolved hs
    refine (h.registered range s).trans ((hwants range s).trans ?_).symm
    rw [and_iff_left hidle]

/-- Removing an entry takes along what it has registered, and leaves the other entries as they are.
-/
theorem unwatch (h : m.Watched) (list : Nat) (name : String) :
    (m.unwatch list name).Watched ∧ ∀ x ∈ (m.unwatch list name).watched, x ∈ m.watched := by
  have hopened := h.openList list
  have hsame := m.watched_openList list
  unfold Monitor.unwatch
  simp only
  split
  · refine ⟨hopened, fun x hx => ?_⟩
    rwa [hsame] at hx
  · rename_i e hfind
    have he : e ∈ (m.openList list).entries list := List.mem_of_find?_eq_some hfind
    obtain rfl : e.name = name := by simpa using List.find?_some hfind
    obtain ⟨hlisted, hmem⟩ := hopened.mem_modify_filter (m.lt_length_openList list) he
    have hmember : e ∈ (m.openList list).watched := by
      rw [entries_eq_getElem (m.lt_length_openList list)] at he
      exact List.mem_flatten.2 ⟨_, List.getElem_mem _, he⟩
    have hstopped := hopened.stopEntry_of_removed hmember hlisted hmem
    refine ⟨hstopped.1, fun x hx => ?_⟩
    rw [watched, hstopped.2] at hx
    exact hsame ▸ ((hmem x).1 hx).1

theorem clearList (h : m.Watched) (list : Nat) :
    (m.clearList list).Watched ∧ ∀ x ∈ (m.clearList list).watched, x ∈ m.watched := by
  have hsame := m.watched_openList list
  unfold Monitor.clearList
  rw [← hsame]
  simp only
  generalize hopened : m.openList list = m'
  replace h : m'.Watched := hopened ▸ h.openList list
  clear hopened hsame
  generalize (m'.entries list).map (·.name) = names
  induction names generalizing m' with
  | nil => exact ⟨h, fun x hx => hx⟩
  | cons name rest ih =>
    obtain ⟨hfirst, hsub⟩ := h.unwatch list name
    obtain ⟨hrest, hsub'⟩ := ih _ hfirst
    exact ⟨hrest, fun x hx => hsub x (hsub' x hx)⟩

/-- The restart of an entry concerns no display. -/
theorem discreetly_restart (m : Monitor) (e : WatchEntry) :
    Discreetly m ((m.stopEntry e).startEntry e).1 :=
  overlooksEntries_discreetly.trans (overlooksEntries_discreetly.stopEntry m e)
    (overlooksEntries_discreetly.startEntry _ e)

/-- Entries that are started again one after the other, up to the first that fails, are told of the
addresses that their names resolve to now. -/
theorem forEach_restart (h : m.Watched) {entries : List WatchEntry}
    (hserials : (entries.map (·.serial)).Nodup) (hmem : ∀ e ∈ entries, e ∈ m.watched) :
    (Outcome.forEach (fun e m => (m.stopEntry e).startEntry e) entries m).1.Watched ∧
      (∀ x ∈ (Outcome.forEach (fun e m => (m.stopEntry e).startEntry e) entries m).1.watched,
        x ∈ m.watched ∨ x.NewSince m.nextStamp) ∧
      ((∀ e ∈ entries, (m.project.resolveText e.name).isOk) →
        ∀ x ∈ (Outcome.forEach (fun e m => (m.stopEntry e).startEntry e) entries m).1.watched,
          x ∈ m.watched ∨ x.update.isSome = x.resolved.isSome ∧
            ∃ e ∈ entries, m.project.resolveText e.name = .ok x.resolved) := by
  induction entries generalizing m with
  | nil => exact ⟨h, fun x hx => .inl hx, fun _ x hx => .inl hx⟩
  | cons e rest ih =>
    rw [List.map_cons, List.nodup_cons] at hserials
    obtain ⟨hrestarted, hothers, hnew, hrenewed⟩ := h.restart (hmem e List.mem_cons_self)
    have hkept : ∀ x ∈ rest, x ∈ ((m.stopEntry e).startEntry e).1.watched := by
      refine fun x hx => hothers x (hmem x (List.mem_cons_of_mem e hx)) fun hserial => ?_
      rw [← hserial] at hserials
      exact hserials.1 (List.mem_map_of_mem hx)
    have hproject : ((m.stopEntry e).startEntry e).1.project = m.project := by
      rw [project, workspace, (discreetly_restart m e).display, project, workspace]
    have hstamp := (discreetly_restart m e).gently.runs.nextStamp_le
    -- What the first restart leaves is there before, or is the entry as it is now.
    have hfirst (hok : (m.project.resolveText e.name).isOk) :
        ∀ x ∈ ((m.stopEntry e).startEntry e).1.watched, x ∈ m.watched ∨
          x.update.isSome = x.resolved.isSome ∧
            ∃ e' ∈ e :: rest, m.project.resolveText e'.name = .ok x.resolved := by
      intro x hx
      cases hresolve : m.project.resolveText e.name with
      | error fault =>
        rw [hresolve] at hok
        cases hok
      | ok resolved =>
        obtain ⟨y, -, hshown, hpolled, -, hafter⟩ := hrenewed resolved hresolve
        rcases (hafter x).1 hx with rfl | ⟨hold, -⟩
        · exact .inr ⟨by rw [hpolled, hshown], e, List.mem_cons_self, by rw [hshown, hresolve]⟩
        · exact .inl hold
    rw [Outcome.forEach]
    generalize (m.stopEntry e).startEntry e = o at hrestarted hkept hproject hfirst hnew hstamp ⊢
    obtain ⟨m', fault⟩ := o
    cases fault with
    | some fault => exact ⟨hrestarted, hnew, fun hok => hfirst (hok e List.mem_cons_self)⟩
    | none =>
      obtain ⟨hall, hsince, hlater⟩ := ih hrestarted hserials.2 hkept
      refine ⟨hall, fun x hx => ?_, fun hok x hx => ?_⟩
      · exact (hsince x hx).elim (hnew x) fun hmade => .inr (hmade.mono hstamp)
      obtain ⟨hnow, hrest⟩ := List.forall_mem_cons.1 hok
      have hthen := hlater (fun e' he' => by rw [hproject]; exact hrest e' he') x hx
      rw [hproject] at hthen
      rcases hthen with hold | ⟨hpolled, e', he', hresolve⟩
      · exact hfirst hnow x hold
      · exact .inr ⟨hpolled, e', List.mem_cons_of_mem e he', hresolve⟩

theorem refreshList (h : m.Watched) (list : Nat) :
    (m.refreshList list).1.Watched ∧
      (∀ x ∈ (m.refreshList list).1.watched, x ∈ m.watched ∨ x.NewSince m.nextStamp) ∧
      ((∀ e ∈ m.entries list, (m.project.resolveText e.name).isOk) →
        ∀ x ∈ (m.refreshList list).1.watched,
          x ∈ m.watched ∨ x.update.isSome = x.resolved.isSome ∧
            ∃ e ∈ m.entries list, m.project.resolveText e.name = .ok x.resolved) := by
  have hopened := h.openList list
  have hlist := m.lt_length_openList list
  have hentries : (m.openList list).entries list = m.entries list := m.entries_openList list
  have hsub : ((m.openList list).entries list).Sublist (m.openList list).watched := by
    rw [entries_eq_getElem hlist]
    exact List.sublist_flatten_of_mem (List.getElem_mem hlist)
  have hall := hopened.forEach_restart
    (hopened.listed.serials.sublist (hsub.map _)) fun e he => hsub.subset he
  rw [m.watched_openList list, hentries] at hall
  unfold Monitor.refreshList
  simp only
  rw [hentries]
  exact hall

/-- Commands that change what is watched keep watch lists in order. Whatever subscriber an entry has
afterwards but not before has been made meanwhile. -/
theorem perform (h : m.Watched) (react : Reactor) {command : Command} (hwatches : command.watches) :
    (m.perform react command).1.Watched ∧
      ∀ x ∈ (m.perform react command).1.watched, x ∈ m.watched ∨ x.NewSince m.nextStamp := by
  cases command with
  | watch list name =>
    obtain ⟨hwatched, hentries⟩ := h.watch list name
    exact ⟨hwatched, fun x hx => (hentries x hx).imp_right fun hnew => hnew.2.1⟩
  | unwatch list name =>
    obtain ⟨hwatched, hentries⟩ := h.unwatch list name
    exact ⟨hwatched, fun x hx => .inl (hentries x hx)⟩
  | clearList list =>
    obtain ⟨hwatched, hentries⟩ := h.clearList list
    exact ⟨hwatched, fun x hx => .inl (hentries x hx)⟩
  | refreshList list =>
    obtain ⟨hwatched, hentries, -⟩ := h.refreshList list
    exact ⟨hwatched, hentries⟩
  | _ => cases hwatches

end Watched

end Monitor

end LadderMonitor
